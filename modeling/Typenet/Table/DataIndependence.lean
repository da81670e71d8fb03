import Typenet.Connection.Recoding
import Typenet.Server.Application
import Typenet.Stack.Tcp.TestUtils
import Typenet.Table.TableMap

namespace Typenet

/-!
# The stack never looks at the data

Recoding the two streams is a map between tables (`Translates.tableMap`), so a run on recoded data
is the recoded run.

* `payload_bytes_never_matter` — runs on data of the same lengths send segments that differ in
  nothing but the bytes of their payloads, and leave connections that differ in nothing else;
* `shout_capitalizes_echo` — the server that shouts sends what the server that echoes sends, with
  the letters capitalized.
-/

variable (m : Recoding)

/-- An emitted segment after recoding. -/
def TcpSegment.recodeOut (seg : TcpSegment .Out) : TcpSegment .Out :=
  { seg with payload := seg.payload.map (TcpPayload.recode m.own) }

/-- **Recoding maps tables to tables.** -/
def Translates.tableMap {σ τ : Type} {m : Recoding} {f : σ → τ} {A : Application σ}
    {B : Application τ} (h : Translates m f A B) : TableMap A B where
  app := f
  conn := ConnState.recode m
  seg := TcpSegment.recode m
  info := SendInfo.recode m
  out := TcpSegment.recodeOut m
  ipPair_seg _ := rfl
  ports_seg _ := rfl
  flags_seg _ := rfl
  out_info _ _ _ := rfl
  rst_seg _ := rfl
  synAck_seg _ _ := rfl
  opened_seg iss s now := (ConnState.opened_recode m iss s.seqNum now).symm
  handled a s c now := SendInfo.handleKnownConn_recode a s c now h
  due _ _ _ _ := List.any_map
  retransmit := ConnState.retransmit_recode m
  close := ConnState.close_recode m

/-- A call with the data that arrives recoded. -/
def Call.recode : Call → Call
  | .createReply seg now => .createReply (seg.recode m) now
  | .makeRetransmissions now late => .makeRetransmissions now late
  | .closeEstablished now => .closeEstablished now

/-- What a call hands back, after recoding. -/
def Emitted.recode : Emitted → Emitted
  | .reply result => .reply (result.map fun reply => reply.map (TcpSegment.recodeOut m))
  | .segments list => .segments (list.map (TcpSegment.recodeOut m))

/-- The table without connections, for an application. -/
def TableState.empty (app : ServerApp) (initialRto : Duration) (maxRetries : UInt8) :
    TableState ServerApp := ⟨Host.new app initialRto maxRetries, fun _ => 0⟩

/-- **A run on recoded data is the recoded run.** -/
theorem Translates.run_recode {σ τ : Type} {m : Recoding} {f : σ → τ} {A : Application σ}
    {B : Application τ} (h : Translates m f A B)
    (oracle : ConnKey → Nat → TraceableResult UInt32) (t : TableState σ) (calls : List Call) :
    (h.tableMap.state t).run B oracle (calls.map (Call.recode m))
      = ((t.run A oracle calls).1.map (Emitted.recode m),
        h.tableMap.state (t.run A oracle calls).2) := by
  have hcall : Call.recode m = h.tableMap.call := by
    ext c
    cases c <;> rfl
  have hemitted : Emitted.recode m = h.tableMap.emitted := by
    ext out
    cases out <;> rfl
  rw [hcall, hemitted]
  exact h.tableMap.run_state oracle t calls

/-! ### Data of the same lengths -/

/-- Every byte is replaced by the same one. -/
def Recoding.blank : Recoding := ⟨fun _ => 0, fun _ => 0⟩

/-- The application that answers by as many blanks as it is handed bytes. -/
def BLANKS : Application Unit where
  handleUdp _ payload := ((), payload.map Recoding.blank.own)
  handleTcp _ data := ((), data.map Recoding.blank.own)

/-- Whatever the server's applications answer, they answer as many bytes. -/
theorem ServerApp.translates_blank :
    Translates .blank (fun _ => ()) ServerApp.application BLANKS where
  state _ _ := rfl
  output self data := by
    cases self <;>
      simp [BLANKS, ServerApp.application, ServerApp.answer, Recoding.blank, Function.comp_def]

/-- **The bytes of the data never matter.**  Take two runs of the server's applications on calls
    that differ in nothing but the bytes of what arrives.  What is sent differs in nothing but the
    bytes of the payloads, and so do the connections that are left. -/
theorem payload_bytes_never_matter (app app' : ServerApp) (initialRto : Duration)
    (maxRetries : UInt8) (oracle : ConnKey → Nat → TraceableResult UInt32)
    (calls calls' : List Call)
    (hsame : calls.map (Call.recode .blank) = calls'.map (Call.recode .blank)) :
    let run := (TableState.empty app initialRto maxRetries).run ServerApp.application oracle calls
    let run' := (TableState.empty app' initialRto maxRetries).run ServerApp.application oracle
      calls'
    run.1.map (Emitted.recode .blank) = run'.1.map (Emitted.recode .blank) ∧
      ∀ key, (run.2.host.get key).map (ConnState.recode .blank)
        = (run'.2.host.get key).map (ConnState.recode .blank) := by
  have hrun := ServerApp.translates_blank.run_recode oracle
    (TableState.empty app initialRto maxRetries) calls
  have hrun' := ServerApp.translates_blank.run_recode oracle
    (TableState.empty app' initialRto maxRetries) calls'
  -- blanked, the two runs are one and the same
  rw [hsame] at hrun
  obtain ⟨hsent, hleft⟩ := Prod.mk.inj (hrun.symm.trans hrun')
  refine ⟨hsent, fun key => ?_⟩
  have hget := congrArg (fun t => t.host.get key) hleft
  exact ((TableMap.get _ _ key).symm.trans hget).trans (TableMap.get _ _ key)

/-- The two bytes of the client, and two others. -/
def YO : TcpPayload := ⟨[0x79, 0x6F], by decide, by decide⟩

/-- A shouted "yo" takes the same segments as an echoed "hi". -/
theorem payload_bytes_never_matter_yo :
    (((TableState.empty .Echo 1000000000 3).run ServerApp.application (fun _ _ => .ok 400)
      [.createReply CLIENT_SYN ⟨0⟩, .createReply CLIENT_HI ⟨1⟩]).1.map (Emitted.recode .blank))
    = ((TableState.empty .Shout 1000000000 3).run ServerApp.application (fun _ _ => .ok 400)
      [.createReply CLIENT_SYN ⟨0⟩,
        .createReply { CLIENT_HI with payload := some YO } ⟨1⟩]).1.map (Emitted.recode .blank) :=
  (payload_bytes_never_matter .Echo .Shout 1000000000 3 (fun _ _ => .ok 400) _ _ rfl).1

/-! ### Shouting -/

/-- Our stream with its letters capitalized. -/
def Recoding.shout : Recoding := ⟨id, toAsciiUppercase⟩

/-- There is nothing left to capitalize after that. -/
theorem toAsciiUppercase_idem (b : UInt8) :
    toAsciiUppercase (toAsciiUppercase b) = toAsciiUppercase b := by
  unfold toAsciiUppercase
  grind

/-- `Shout` answers what `Echo` answers, capitalized. -/
theorem ServerApp.translates_shout :
    Translates .shout (fun _ => .Shout) ServerApp.application ServerApp.application where
  state _ _ := rfl
  output self data := by
    cases self <;> simp [ServerApp.application, ServerApp.answer, Recoding.shout,
      toAsciiUppercase_idem]

/-- What arrives stays as it is. -/
theorem Call.recode_shout (c : Call) : c.recode .shout = c := by
  have hpayload : TcpPayload.recode Recoding.shout.peer = id := by
    ext p : 1
    obtain ⟨data, hne, hle⟩ := p
    simp [TcpPayload.recode, Recoding.shout]
  cases c with
  | createReply seg now =>
    have hseg : seg.recode .shout = seg := by
      unfold TcpSegment.recode
      rw [hpayload, Option.map_id_fun, id_eq]
    exact congrArg (Call.createReply · now) hseg
  | makeRetransmissions now late => rfl
  | closeEstablished now => rfl

/-- **The server that shouts is the server that echoes, capitalized.**  On the same calls the two
    send the same segments at the same times, but for the letters in their payloads, and leave the
    same connections, but for the letters they have yet to send or to send again. -/
theorem shout_capitalizes_echo (initialRto : Duration) (maxRetries : UInt8)
    (oracle : ConnKey → Nat → TraceableResult UInt32) (calls : List Call) :
    let shouts := (TableState.empty .Shout initialRto maxRetries).run ServerApp.application oracle
      calls
    let echoes := (TableState.empty .Echo initialRto maxRetries).run ServerApp.application oracle
      calls
    shouts.1 = echoes.1.map (Emitted.recode .shout) ∧
      ∀ key, shouts.2.host.get key = (echoes.2.host.get key).map (ConnState.recode .shout) := by
  have hcalls : calls.map (Call.recode .shout) = calls :=
    (List.map_congr_left fun c _ => Call.recode_shout c).trans calls.map_id'
  have hrun := ServerApp.translates_shout.run_recode oracle
    (TableState.empty .Echo initialRto maxRetries) calls
  rw [hcalls] at hrun
  obtain ⟨hsent, hleft⟩ := Prod.mk.inj hrun
  refine ⟨hsent, fun key => ?_⟩
  have hget := congrArg (fun t => t.host.get key) hleft
  exact hget.trans (TableMap.get _ _ key)

end Typenet
