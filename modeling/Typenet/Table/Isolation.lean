import Typenet.Table.Calls
import Typenet.Table.InFlight
import Typenet.Server.Application
import Typenet.Stack.Tcp.TestUtils

namespace Typenet

/-!
# Connections do not see each other

For a stateless application what the table does for one key depends on that key's entry alone,
although the two sweeps go over the whole table and remove connections on the way.  Deleting the
segments of all other keys therefore changes nothing for the key, and two adjacent segments of
different keys can be exchanged.  After an exchange the table may list its connections in another
order, so a sweep may send the same segments in another order.
-/

variable {σ : Type} {A : Application σ} (oracle : ConnKey → Nat → TraceableResult UInt32)

/-! ### Deletion -/

/-- The calls that concern `key`: its own segments, and the sweeps. -/
def Call.concerns (key : ConnKey) : Call → Bool
  | .createReply seg _ => decide (ConnKey.ofSegment seg = key)
  | .makeRetransmissions _ _ => true
  | .closeEstablished _ => true

/-- The segments emitted for `key`, in order. -/
def emittedFor (key : ConnKey) (outs : List Emitted) : List (TcpSegment .Out) :=
  (outs.map fun out => segmentsOf key out.toList).flatten

/-- A call that does not concern the key does nothing to its entry. -/
theorem Entry.call_idle (isn : Nat → TraceableResult UInt32) (key : ConnKey) (x : Entry)
    (c : Call) (h : c.concerns key = false) : x.call isn key c = ([], x) := by
  cases c with
  | createReply seg now => exact if_neg (of_decide_eq_false h)
  | makeRetransmissions now late => cases h
  | closeEstablished now => cases h

/-- **Runs, one key at a time.** -/
theorem TableState.run_entry (hA : Stateless A) (key : ConnKey) (calls : List Call)
    (t : TableState σ) :
    Mealy.run (fun (x : Entry) c => x.call (oracle key) key c) calls (t.entry A key)
      = (((t.run A oracle calls).1.map fun out => segmentsOf key out.toList),
        (t.run A oracle calls).2.entry A key) := by
  have h := Mealy.run_hom (fun t : TableState σ => t.entry A key) id
    (fun out => segmentsOf key out.toList)
    (fun (t : TableState σ) c => Prod.ext (t.call_entry oracle hA c key).1.symm
      (t.call_entry oracle hA c key).2.symm) calls t
  rw [List.map_id] at h
  exact h

/-- Deleting the segments of other keys changes nothing for the key. -/
theorem TableState.run_concerns (hA : Stateless A) (key : ConnKey) (calls : List Call)
    (t : TableState σ) :
    emittedFor key (t.run A oracle (calls.filter (Call.concerns key))).1
        = emittedFor key (t.run A oracle calls).1 ∧
      (t.run A oracle (calls.filter (Call.concerns key))).2.entry A key
        = (t.run A oracle calls).2.entry A key := by
  have hfilter := Mealy.run_filter (Entry.call_idle (oracle key) key) calls (t.entry A key)
  rw [TableState.run_entry oracle hA, TableState.run_entry oracle hA] at hfilter
  exact hfilter

/-! ### Exchange -/

/-- The same reply, or the same segments in some order. -/
inductive Emitted.Alike : Emitted → Emitted → Prop
  | reply (result : TraceableResult (Option (TcpSegment .Out))) :
      Alike (.reply result) (.reply result)
  | segments {l l' : List (TcpSegment .Out)} : l.Perm l' → Alike (.segments l) (.segments l')

/-- Two tables that hold the same for every key. -/
def TableState.Alike (A : Application σ) (t t' : TableState σ) : Prop :=
  ∀ key, t.entry A key = t'.entry A key

/-- Lists with the same segments for every key, in order, have the same segments. -/
theorem perm_of_segmentsOf {l l' : List (TcpSegment .Out)}
    (h : ∀ key, segmentsOf key l = segmentsOf key l') : l.Perm l' := by
  rw [List.perm_iff_count]
  intro seg
  have hcount : ∀ l : List (TcpSegment .Out),
      (segmentsOf (ConnKey.ofOutgoing seg) l).count seg = l.count seg := fun l =>
    List.count_filter (by simp)
  rw [← hcount l, ← hcount l', h]

/-- **A call on two tables that are alike.** -/
theorem TableState.call_alike (hA : Stateless A) {t t' : TableState σ} (h : t.Alike A t')
    (c : Call) :
    (t.call A oracle c).1.Alike (t'.call A oracle c).1 ∧
      (t.call A oracle c).2.Alike A (t'.call A oracle c).2 := by
  have hentry : ∀ key, (t.call A oracle c).2.entry A key = (t'.call A oracle c).2.entry A key := by
    intro key
    rw [(t.call_entry oracle hA c key).2, (t'.call_entry oracle hA c key).2, h key]
  have hsegs : ∀ key, segmentsOf key (t.call A oracle c).1.toList
      = segmentsOf key (t'.call A oracle c).1.toList := by
    intro key
    rw [(t.call_entry oracle hA c key).1, (t'.call_entry oracle hA c key).1, h key]
  refine ⟨?_, hentry⟩
  cases c with
  | createReply seg now =>
    rw [(t.createReply_entry oracle hA seg now).1, (t'.createReply_entry oracle hA seg now).1, h]
    exact .reply _
  | makeRetransmissions now late => exact .segments (perm_of_segmentsOf hsegs)
  | closeEstablished now => exact .segments (perm_of_segmentsOf hsegs)

/-- **Two segments of different keys commute.** -/
theorem TableState.exchange (hA : Stateless A) (t : TableState σ) {seg₁ seg₂ : TcpSegment .In}
    (now₁ now₂ : Instant) (hne : ConnKey.ofSegment seg₁ ≠ ConnKey.ofSegment seg₂) :
    ((t.call A oracle (.createReply seg₂ now₂)).2.call A oracle (.createReply seg₁ now₁)).1
        = (t.call A oracle (.createReply seg₁ now₁)).1 ∧
      ((t.call A oracle (.createReply seg₁ now₁)).2.call A oracle (.createReply seg₂ now₂)).1
        = (t.call A oracle (.createReply seg₂ now₂)).1 ∧
      TableState.Alike A
        ((t.call A oracle (.createReply seg₁ now₁)).2.call A oracle (.createReply seg₂ now₂)).2
        ((t.call A oracle (.createReply seg₂ now₂)).2.call A oracle (.createReply seg₁ now₁)).2 := by
  refine ⟨?_, ?_, fun key => ?_⟩
  · rw [(createReply_entry oracle hA _ seg₁ now₁).1, (createReply_entry oracle hA _ seg₁ now₁).1,
      createReply_entry_ne oracle hA _ now₂ (Ne.symm hne)]
  · rw [(createReply_entry oracle hA _ seg₂ now₂).1, (createReply_entry oracle hA _ seg₂ now₂).1,
      createReply_entry_ne oracle hA _ now₁ hne]
  · rw [(call_entry oracle hA _ _ key).2, (call_entry oracle hA _ _ key).2,
      (call_entry oracle hA _ _ key).2, (call_entry oracle hA _ _ key).2]
    -- at most one of the two concerns the key
    by_cases h₁ : ConnKey.ofSegment seg₁ = key
    · have h₂ : ConnKey.ofSegment seg₂ ≠ key := fun h => hne (h₁.trans h.symm)
      have hidle : ∀ x : Entry, x.call (oracle key) key
          (.createReply seg₂ now₂) = ([], x) := fun x => Entry.call_idle _ _ x _ (by
        simpa [Call.concerns] using h₂)
      rw [hidle, hidle]
    · have hidle : ∀ x : Entry, x.call (oracle key) key
          (.createReply seg₁ now₁) = ([], x) := fun x => Entry.call_idle _ _ x _ (by
        simpa [Call.concerns] using h₁)
      rw [hidle, hidle]

/-! ### Isolation -/

/-- **Connections are isolated.** For a stateless application, the segments emitted for a key and
    the connection stored under it are those of the run without the segments of other keys; and
    exchanging two adjacent segments of different keys changes neither their replies, nor what
    any later call hands back, nor the table reached. -/
theorem connection_isolation (A : Application σ) (hA : Stateless A)
    (oracle : ConnKey → Nat → TraceableResult UInt32) (t : TableState σ) :
    (∀ key calls,
      emittedFor key (t.run A oracle calls).1
          = emittedFor key (t.run A oracle (calls.filter (Call.concerns key))).1 ∧
        (t.run A oracle calls).2.host.get key
          = (t.run A oracle (calls.filter (Call.concerns key))).2.host.get key) ∧
    ∀ front rest seg₁ now₁ seg₂ now₂, ConnKey.ofSegment seg₁ ≠ ConnKey.ofSegment seg₂ →
      ∃ outs out₁ out₂ outs₁ outs₂,
        (t.run A oracle (front ++ .createReply seg₁ now₁ :: .createReply seg₂ now₂ :: rest)).1
          = outs ++ out₁ :: out₂ :: outs₁ ∧
        (t.run A oracle (front ++ .createReply seg₂ now₂ :: .createReply seg₁ now₁ :: rest)).1
          = outs ++ out₂ :: out₁ :: outs₂ ∧
        outs.length = front.length ∧ List.Forall₂ Emitted.Alike outs₁ outs₂ ∧
        ∀ key, (t.run A oracle (front ++ .createReply seg₁ now₁ ::
              .createReply seg₂ now₂ :: rest)).2.host.get key
            = (t.run A oracle (front ++ .createReply seg₂ now₂ ::
              .createReply seg₁ now₁ :: rest)).2.host.get key := by
  constructor
  · intro key calls
    obtain ⟨hout, hentry⟩ := TableState.run_concerns oracle hA key calls t
    exact ⟨hout.symm, (congrArg Entry.conn hentry).symm⟩
  · intro front rest seg₁ now₁ seg₂ now₂ hne
    unfold TableState.run
    simp only [Mealy.run_append, Mealy.run_cons]
    generalize hm : (Mealy.run (TableState.call A oracle) front t).2 = m
    obtain ⟨hout₁, hout₂, halike⟩ := m.exchange oracle hA now₁ now₂ hne
    obtain ⟨houts, hlast⟩ := Mealy.run_related (Q := Emitted.Alike) (R := TableState.Alike A)
      (fun _ _ c h => TableState.call_alike oracle hA h c) rest halike
    refine ⟨_, _, _, _, _, rfl, ?_, ?_, houts, fun key => congrArg Entry.conn (hlast key)⟩
    · rw [hout₁, hout₂]
    · exact Mealy.run_length _ front t

/-! ### The server's applications -/

/-- Both of the server's applications keep answering as they do. -/
theorem ServerApp.stateless : Stateless ServerApp.application := fun _ _ => rfl

/-- The client's SYN, from another port. -/
def OTHER_SYN : TcpSegment .In := { CLIENT_SYN with ports := ⟨1235, KEY.serverPort⟩ }

/-- The server's ISN for every first connection, and its successors. -/
def serverIsns (_ : ConnKey) (n : Nat) : TraceableResult UInt32 := .ok (400 + n.toUInt32)

/-- A run of a server that shouts. -/
def shout (calls : List Call) : List Emitted × TableState ServerApp :=
  TableState.run ServerApp.application serverIsns calls ⟨Host.new .Shout 1000000000 3, fun _ => 0⟩

/-- One client says "hi" before the server closes; what it was sent is then due again. -/
def afterSyns : List Call :=
  [.createReply CLIENT_HI ⟨1⟩, .closeEstablished ⟨2⟩, .makeRetransmissions ⟨3000000000⟩ ⟨0⟩]

/-- What the client is sent and the connection it has do not depend on the other client, whose
    SYN can also be answered first. -/
theorem connection_isolation_shout :
    (emittedFor KEY (shout (.createReply CLIENT_SYN ⟨0⟩ :: .createReply OTHER_SYN ⟨0⟩ ::
      afterSyns)).1).length = 5 ∧
    emittedFor KEY (shout (.createReply CLIENT_SYN ⟨0⟩ :: .createReply OTHER_SYN ⟨0⟩ ::
      afterSyns)).1 = emittedFor KEY (shout (.createReply CLIENT_SYN ⟨0⟩ :: afterSyns)).1 ∧
    (shout (.createReply CLIENT_SYN ⟨0⟩ :: .createReply OTHER_SYN ⟨0⟩ :: afterSyns)).2.host.get KEY
      = (shout (.createReply OTHER_SYN ⟨0⟩ :: .createReply CLIENT_SYN ⟨0⟩ ::
        afterSyns)).2.host.get KEY := by
  obtain ⟨hdelete, hswap⟩ := connection_isolation ServerApp.application ServerApp.stateless
    serverIsns ⟨Host.new .Shout 1000000000 3, fun _ => 0⟩
  have hkeys : (Call.createReply CLIENT_SYN ⟨0⟩ :: .createReply OTHER_SYN ⟨0⟩ ::
      afterSyns).filter (Call.concerns KEY) = .createReply CLIENT_SYN ⟨0⟩ :: afterSyns := rfl
  have hne : ConnKey.ofSegment CLIENT_SYN ≠ ConnKey.ofSegment OTHER_SYN := by decide
  have hkey := (hdelete KEY (.createReply CLIENT_SYN ⟨0⟩ :: .createReply OTHER_SYN ⟨0⟩ ::
    afterSyns)).1
  rw [hkeys] at hkey
  obtain ⟨-, -, -, -, -, -, -, -, -, hget⟩ :=
    hswap [] afterSyns CLIENT_SYN ⟨0⟩ OTHER_SYN ⟨0⟩ hne
  refine ⟨by decide, ?_, ?_⟩
  · unfold shout
    exact hkey
  · unfold shout
    exact hget KEY

end Typenet
