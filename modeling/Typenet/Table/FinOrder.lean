import Typenet.Table.Runs
import Typenet.Connection.SendStream

namespace Typenet

/-!
# Our FIN and queued data

Passive close sends our FIN only with the last byte of the send buffer, and waits in
CLOSE-WAIT while bytes are left.  Active close does not look at the buffer: it sends the FIN
of an ESTABLISHED connection at once, and what is queued then is never sent.  Hence the FIN
comes after all queued data exactly as long as every closing sweep finds the buffers of
ESTABLISHED connections empty (`ClosesDrained`).
-/

variable {σ : Type} {A : Application σ} {rto : RtoConfig} {maxRetries : UInt8} {app : σ}
  {conn conn' : ConnState} {ev : ConnEvent}

/-- The send buffer of a connection in CLOSE-WAIT is not empty. -/
def CloseWaitPending (conn : ConnState) : Prop :=
  conn.name = some .CloseWait → conn.sendBuffer ≠ []

/-- Once our FIN has been sent, nothing is queued. -/
def FinLast (conn : ConnState) : Prop := FinSent conn.name → conn.sendBuffer = []

/-- The closing sweep meets an ESTABLISHED connection only with an empty send buffer. -/
def ClosesDrained (conn : ConnState) (ev : ConnEvent) : Prop :=
  ∀ now, ev = .close now → conn.name = some .Established → conn.sendBuffer = []

/-- The condition asks nothing of segments. -/
theorem closesDrained_segment (h : Host σ) (seg : TcpSegment .In)
    (randomU32 : TraceableResult UInt32) (now : Instant) :
    Host.Guard ClosesDrained h (.segment seg randomU32 now) := by
  rintro key conn ev - hev now' rfl
  rw [HostEvent.at] at hev
  split at hev <;> cases hev

/-! ### One step -/

/-- A segment that leaves the connection in CLOSE-WAIT leaves something queued. -/
theorem CloseWaitPending.sendMove {seg : TcpSegment .In} {now : Instant} {extra : List UInt8}
    {reply : Option SendInfo} (h : CloseWaitPending conn)
    (hm : SendMove seg now conn extra conn' reply) : CloseWaitPending conn' := by
  intro hname
  cases hm with
  | idle hsame hextra hq =>
    rw [hsame.sendBuffer]
    apply h
    unfold ConnState.name at hname ⊢
    rw [← hsame.tcpState]; exact hname
  | resend hst hextra hinfo hst' =>
    unfold ConnState.name at hname
    rw [hst'] at hname; cases hname
  | ack hack hshift hsync hextra hcw hnxt hbuf hq =>
    rcases hcw hname with hold | hne
    · rw [hbuf]
      exact List.append_ne_nil_of_left_ne_nil (h hold) _
    · exact hne
  | data hack hsend hsilent hname' hleft => exact hleft hname
  | fin hack hsend hsilent hname' => exact absurd (hname'.symm.trans hname) (by decide)

/-- A segment leaves nothing queued behind our FIN. -/
theorem FinLast.sendMove {seg : TcpSegment .In} {now : Instant} {extra : List UInt8}
    {reply : Option SendInfo} (h : FinLast conn)
    (hm : SendMove seg now conn extra conn' reply) : FinLast conn' := by
  intro hfs
  cases hm with
  | idle hsame hextra hq =>
    rw [hsame.sendBuffer]
    apply h
    unfold ConnState.name at hfs ⊢
    rw [← hsame.tcpState]; exact hfs
  | resend hst hextra hinfo hst' =>
    unfold ConnState.name at hfs
    rw [hst'] at hfs; exact absurd hfs (by decide)
  | ack hack hshift hsync hextra hcw hnxt hbuf hq =>
    have hold := hshift.finSent_iff.mp hfs
    -- after our FIN the application is no longer called
    have hsilent : extra = [] := by
      by_contra hne; exact hold (.inl (hextra hne))
    rw [hbuf, h hold, hsilent]; rfl
  | data hack hsend hsilent hname' =>
    rcases hname' with hn | hn <;> rw [hn] at hfs <;> exact absurd hfs (by decide)
  | fin hack hsend hsilent hname' hwin hempty => exact hempty

/-- So does every step. -/
theorem CloseWaitPending.step (h : CloseWaitPending conn)
    (hs : (conn.step A rto maxRetries app ev).conn = some conn') : CloseWaitPending conn' := by
  have hmove := ConnState.step_move hs
  generalize conn.step A rto maxRetries app ev = out at hmove
  cases hmove with
  | segment hfeed hsend hrecv => exact h.sendMove hsend
  | retransmit => exact h
  | close hst => intro hname; cases hname
  | closeIdle => exact h

/-- Nor does any step, if a close finds nothing queued. -/
theorem FinLast.step (h : FinLast conn) (hg : ClosesDrained conn ev)
    (hs : (conn.step A rto maxRetries app ev).conn = some conn') : FinLast conn' := by
  have hmove := ConnState.step_move hs
  generalize conn.step A rto maxRetries app ev = out at hmove
  cases hmove with
  | segment hfeed hsend hrecv => exact h.sendMove hsend
  | retransmit => exact h
  | close hst =>
    intro _
    exact hg _ rfl (by unfold ConnState.name; rw [hst]; rfl)
  | closeIdle => exact h

/-! ### Every run -/

/-- A connection in CLOSE-WAIT has something to send, in every run. -/
theorem closeWait_pending {initialRto : Duration} {es : List (HostEvent σ)} {h : Host σ}
    {G : ConnState → ConnEvent → Prop}
    (hrun : Runs.Run (Host.step A) (Host.Guard G) (Host.new app initialRto maxRetries) es h)
    {key : ConnKey} (hconn : h.get key = some conn) : CloseWaitPending conn :=
  Host.conn_invariant (fun _ _ _ => nofun) (fun _ _ _ _ _ _ hp _ hs => hp.step hs) hrun hconn

/-- **Our FIN follows all queued data**, in every run whose closing sweeps find the buffers of
    ESTABLISHED connections empty; and CLOSE-WAIT always has something to send. -/
theorem fin_after_queued_data (A : Application σ) (app : σ) (initialRto : Duration)
    (maxRetries : UInt8) (es : List (HostEvent σ)) (h : Host σ)
    (hrun : Runs.Run (Host.step A) (Host.Guard ClosesDrained)
      (Host.new app initialRto maxRetries) es h)
    (key : ConnKey) (conn : ConnState) (hconn : h.get key = some conn) :
    (conn.name = some .FinWait1 ∨ conn.name = some .FinWait2 ∨ conn.name = some .Closing
        ∨ conn.name = some .LastAck → conn.sendBuffer = []) ∧
      (conn.name = some .CloseWait → conn.sendBuffer ≠ []) := by
  have hlast : FinLast conn := Host.conn_invariant (fun _ _ _ _ => rfl)
    (fun _ _ _ _ _ _ hp hg hs => hp.step hg hs) hrun hconn
  exact ⟨fun hn => hlast ((finSent_iff _).mpr hn), closeWait_pending hrun hconn⟩

/-- Data is answered at once behind an open window, and the closing sweep follows. -/
def answeredThenClosed : List (HostEvent ServerApp) :=
  [.segment CLIENT_SYN (.ok 400) ⟨0⟩, .segment CLIENT_HI (.ok 0) ⟨1⟩,
    .close (fun _ => .ok ()) ⟨2⟩]

/-- Data is queued behind a closed window, and the closing sweep follows. -/
def queuedThenClosed : List (HostEvent ServerApp) :=
  [.segment CLIENT_SYN (.ok 400) ⟨0⟩, .segment { CLIENT_HI with window := 0 } (.ok 0) ⟨1⟩,
    .close (fun _ => .ok ()) ⟨2⟩]

/-- The FIN of a drained connection comes last. -/
theorem fin_after_queued_data_answered :
    ∃ conn, (answeredThenClosed.foldl (Host.step ServerApp.application)
        (Host.new .Echo 1000000000 3)).get KEY = some conn ∧
      conn.name = some .FinWait1 ∧ conn.sendBuffer = [] := by
  have hname : ((answeredThenClosed.foldl (Host.step ServerApp.application)
      (Host.new .Echo 1000000000 3)).get KEY).map ConnState.name = some (some .FinWait1) := by
    decide
  obtain ⟨conn, hconn, hname⟩ := Option.map_eq_some_iff.mp hname
  have hdrained : ∀ e ∈ ((answeredThenClosed.take 2).foldl (Host.step ServerApp.application)
      (Host.new .Echo 1000000000 3)).connections.table.entries, e.2.sendBuffer = [] := by
    decide
  have hclose : Host.Guard ClosesDrained ((answeredThenClosed.take 2).foldl
      (Host.step ServerApp.application) (Host.new .Echo 1000000000 3))
      (.close (fun _ => .ok ()) ⟨2⟩) := fun _ _ _ hget _ _ _ _ =>
    hdrained _ (TcpConnections.mem_entries_of_get hget)
  have h := fin_after_queued_data ServerApp.application .Echo 1000000000 3 answeredThenClosed _
    (.of_admits ⟨closesDrained_segment _ _ _ _, closesDrained_segment _ _ _ _, hclose, trivial⟩)
    KEY conn hconn
  exact ⟨conn, hconn, hname, h.1 (.inl hname)⟩

/-- **Active close overtakes queued data**: in a run of an echo server a connection in
    FIN-WAIT-1 still has the answer in its send buffer. -/
theorem fin_overtakes_queued_data :
    ∃ es h conn, Runs.Run (Host.step ServerApp.application) (fun _ _ => True)
        (Host.new .Echo 1000000000 3) es h ∧
      h.get KEY = some conn ∧ conn.name = some .FinWait1 ∧ conn.sendBuffer ≠ [] := by
  have h : ((queuedThenClosed.foldl (Host.step ServerApp.application)
      (Host.new .Echo 1000000000 3)).get KEY).map (fun conn => (conn.name, conn.sendBuffer))
        = some (some .FinWait1, HI.data) := by decide
  obtain ⟨conn, hconn, heq⟩ := Option.map_eq_some_iff.mp h
  obtain ⟨hname, hbuf⟩ := Prod.mk.inj heq
  exact ⟨queuedThenClosed, _, conn, .of_foldl _ _, hconn, hname, by rw [hbuf]; decide⟩

end Typenet
