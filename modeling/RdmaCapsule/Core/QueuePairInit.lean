import Mathlib
import RdmaCapsule.Core.Ownership
import RdmaCapsule.Core.PostChunks

/-! The making of a queue pair that may fail: `init`, the destructor that runs after it, and the two
callers that are handed NULL. The destructor has no way to tell how far `init` came. -/
namespace RdmaCapsule.Core

open RdmaCapsule.Foundation

/-- The verbs queue pair behind the pointer `qp`. -/
inductive VerbsQp where
  | null
  | live
  | destroyed
  deriving DecidableEq, Repr

/-- A `QueuePair` object that is being made. It is named by the number that verbs gives or would
have given. -/
structure Creation where
  ib : Infiniband
  qp : VerbsQp

namespace Creation

/-- The constructor. -/
def new (config : Config) (q : Nat) (ib : Infiniband) : Creation where
  ib := { ib with qps := Function.update ib.qps q (some ⟨config.rxQueueLen, [], false, [], []⟩) }
  qp := .null

/-- `init`. Where the transition fails the verbs queue pair is destroyed, and the pointer stays. -/
def init (config : Config) (q : Nat) (answer : InitAnswer) (c : Creation) :
    Except Fault (Int × Creation) :=
  match answer with
  | .notCreated => .ok (-1, c)
  | .notInit => .ok (-1, { c with qp := .destroyed })
  | .created => do
      let (rqWrs, ib) ← c.ib.postChunksToRq config.toEnv config.rxQueueLen q
      pure (if rqWrs = 0 then -1 else 0, ⟨ib, .live⟩)

/-- `~QueuePair`. The number of the verbs queue pair is logged before the pointer is tested. -/
def destroy (q : Nat) (c : Creation) : Except Fault Creation :=
  match c.qp with
  | .null => .error .nullVerbsQp
  | .destroyed => .error .destroyedTwice
  | .live => do
      let ib ← c.ib.deleteQp q
      pure ⟨ib, .destroyed⟩

def createQueuePair (config : Config) (q : Nat) (answer : InitAnswer) (ib : Infiniband) :
    Except Fault (Option Nat × Creation) := do
  let (r, c) ← (new config q ib).init config q answer
  if r ≠ 0 then
    let c ← c.destroy q
    pure (none, c)
  else pure (some q, c)

end Creation

/-- What the TCP socket of a new connection is answered: `errno` of the calls that fail. -/
structure Dial where
  nonblock : Bool
  connect : Option ℕ+
  setOptions : Option ℕ+
  answers : Answers

/-- The same at the side that accepts. -/
structure Accept where
  accept : Option ℕ+
  setNonblock : Option ℕ+
  setOptions : Option ℕ+

/-- The TCP socket cannot be connected, or its options cannot be set. -/
def Dial.Fails (dial : Dial) : Prop := dial.connect.isSome ∨ dial.setOptions.isSome

namespace World

/-- The rest of the constructor of a connection, once the queue pair has been made or not. -/
def adopt (config : Config) (k : Nat) (isServer : Bool) (w : World) :
    Option Nat × Creation → Except Fault World
  | (none, c) =>
      let w := { w with ib := c.ib }
      .ok (w.setSock k ⟨none, .new config isServer 0, [], [], 0, false⟩)
  | (some q, c) =>
      let w := { w with ib := c.ib }
      (w.setSock k ⟨some q, .new config isServer q, [], [], 0, false⟩).registerQp q k

/-- `handle_connection_established(false)`. -/
def handleConnectionEstablished (k : Nat) (answers : Answers) (w : World) :
    Except Fault (Int × World) := do
  let s ← w.sock k
  if s.ep.connected then pure (-1, w)
  else
    let q ← sockQp s
    let (ep, _, r) := s.ep.handleConnectionEstablished false answers
    pure (r, w.setEndpoint k s q ep)

def tryConnect (k : Nat) (dial : Dial) (w : World) : Except Fault (Int × World) :=
  match dial.connect with
  | some errno => .ok (-errno, w)
  | none =>
      match dial.setOptions with
      | some errno => .ok (-errno, w)
      | none => if dial.nonblock then .ok (0, w) else w.handleConnectionEstablished k dial.answers

/-- `RDMAWorker::connect`. -/
def connect (config : Config) (k q : Nat) (answer : InitAnswer) (switched : Bool) (dial : Dial)
    (w : World) : Except Fault (Int × World) := do
  let w ← w.create config k q false answer
  let (r, w) ← w.tryConnect k dial
  if r < 0 then
    let w ← w.destroy switched k
    pure (r, w)
  else pure (0, w)

/-- `RDMAServerSocketImpl::accept`, which looks at the queue pair of the new connection. -/
def accept (config : Config) (k q : Nat) (answer : InitAnswer) (calls : Accept) (w : World) :
    Except Fault (Int × World) :=
  match calls.accept <|> calls.setNonblock <|> calls.setOptions with
  | some errno => .ok (-errno, w)
  | none => do
      let w ← w.create config k q true answer
      let s ← w.sock k
      pure (if s.qp.isNone then -1 else 0, w)

/-- If `init` fails, there is no queue pair and no verbs queue pair, all chunks that are not in
use are in the pool, and both callers report that they have failed. -/
def LeavesNothing (config : Config) (w : World) (k q : Nat) (answer : InitAnswer) (switched : Bool)
    (dial : Dial) (calls : Accept) : Prop :=
  ∀ r c, (Creation.new config q w.ib).init config q answer = .ok (r, c) → r ≠ 0 →
    (∃ c', Creation.createQueuePair config q answer w.ib = .ok (none, c') ∧ c'.qp ≠ .live ∧
      c'.ib.qps q = none ∧
      ∀ chunk, chunk ∈ w.ib.free ∨ w.ib.made ≤ chunk ∧ chunk < c'.ib.made → chunk ∈ c'.ib.free) ∧
    (∃ r' w', w.connect config k q answer switched dial = .ok (r', w') ∧ r' < 0) ∧
    ∃ r' w', w.accept config k q answer calls = .ok (r', w') ∧ r' < 0

/-- The pool has no chunk for the first receive. -/
def Dry (config : Config) (w : World) : Prop :=
  0 < config.rxQueueLen ∧ w.ib.free = [] ∧ config.block w.ib.mallocs = 0

variable {config : Config} {w w' : World} {k q : Nat} {ib : Infiniband}

/-- The constructor of a connection is the making of its queue pair and what follows it. -/
theorem create_eq (config : Config) (k q : Nat) (isServer : Bool) (answer : InitAnswer)
    (w : World) : w.create config k q isServer answer =
      Creation.createQueuePair config q answer w.ib >>= w.adopt config k isServer := by
  cases answer with
  | notCreated => rfl
  | notInit => rfl
  | created =>
      show ((Creation.new config q w.ib).ib.postChunksToRq _ _ _ >>= _) =
        ((((Creation.new config q w.ib).ib.postChunksToRq _ _ _) >>= _) >>= _) >>= _
      cases (Creation.new config q w.ib).ib.postChunksToRq config.toEnv config.rxQueueLen q with
      | error fault => rfl
      | ok result =>
          obtain ⟨rqWrs, ib⟩ := result
          by_cases hnone : rqWrs = 0
          · subst hnone
            show (ib.deleteQp q >>= _) = ((ib.deleteQp q >>= _) >>= _) >>= _
            cases ib.deleteQp q <;> rfl
          · simp only [ok_bind, if_neg hnone]
            rfl

theorem supply_nil_iff (env : Env) (n : Nat) (ib : Infiniband) :
    Infiniband.supply env (n + 1) ib = [] ↔ ib.free = [] ∧ env.block ib.mallocs = 0 := by
  unfold Infiniband.supply Infiniband.getRxBuffer Infiniband.slowMalloc
  cases hfree : ib.free with
  | cons c rest => simp [hfree]
  | nil =>
      cases hblock : env.block ib.mallocs with
      | zero => simp
      | succ n => simp [List.range'_succ]

/-- Chunks that are supplied are reported, all of them or some. -/
theorem postChunksToRq_ne_zero {env : Env} {n : Nat} {qp : QueuePair} (hqp : ib.qps q = some qp)
    (hn : 0 < n) (hsome : Infiniband.supply env n ib ≠ []) :
    Ends (ib.postChunksToRq env n q) (fun result => result.1 ≠ 0) fun _ => True := by
  obtain ⟨ib₁, hfill, -, -⟩ := Infiniband.fillRequests_supply env n [] hqp
  rw [List.nil_append] at hfill
  unfold Infiniband.postChunksToRq
  rw [hqp]
  dsimp only
  rw [if_neg hn.ne', hfill]
  dsimp only
  rw [if_neg hsome]
  split
  · trivial
  split
  · trivial
  rename_i hlength
  split
  · exact hn.ne'
  · refine (ends_true _).bind fun ib₂ _ => ?_
    show n - _ ≠ 0
    rw [List.length_dropLast, List.length_drop]
    omega

/-- `init` fails on a queue pair that verbs has made exactly when the pool is dry. -/
theorem init_created (config : Config) (q : Nat) (w : World) (hwet : ¬ w.Dry config) :
    Ends ((Creation.new config q w.ib).init config q .created) (fun result => result.1 = 0)
      fun _ => True := by
  have hqp : (Creation.new config q w.ib).ib.qps q = some ⟨config.rxQueueLen, [], false, [], []⟩ :=
    Function.update_self ..
  cases hlen : config.rxQueueLen with
  | zero =>
      have hstops : (Creation.new config q w.ib).ib.postChunksToRq config.toEnv
          config.rxQueueLen q = .error .tempOverrun := by
        unfold Infiniband.postChunksToRq
        rw [hqp]
        exact if_pos hlen
      unfold Creation.init
      dsimp only
      rw [hstops]
      trivial
  | succ n =>
      have hsome : Infiniband.supply config.toEnv config.rxQueueLen
          (Creation.new config q w.ib).ib ≠ [] := by
        rw [hlen]
        intro hnone
        exact hwet ⟨by omega, (supply_nil_iff _ _ (Creation.new config q w.ib).ib).mp hnone⟩
      refine (postChunksToRq_ne_zero hqp (by omega) hsome).bind ?_
      rintro ⟨rqWrs, ib⟩ hrqWrs
      exact if_neg hrqWrs

/-- What a dry pool leaves: the allocator has been asked once more. -/
theorem init_dry (config : Config) (q : Nat) (w : World) (hdry : w.Dry config) :
    ∃ mallocs, (Creation.new config q w.ib).init config q .created =
      .ok (-1, ⟨{ (Creation.new config q w.ib).ib with mallocs }, .live⟩) := by
  obtain ⟨hlen, hfree, hblock⟩ := hdry
  have hqp : (Creation.new config q w.ib).ib.qps q = some ⟨config.rxQueueLen, [], false, [], []⟩ :=
    Function.update_self ..
  have hnone : Infiniband.supply config.toEnv config.rxQueueLen
      (Creation.new config q w.ib).ib = [] := by
    obtain ⟨n, hn⟩ := Nat.exists_eq_succ_of_ne_zero hlen.ne'
    rw [hn]
    exact (supply_nil_iff _ _ _).mpr ⟨hfree, hblock⟩
  obtain ⟨mallocs, hfill⟩ := Infiniband.fillRequests_none (q := q) hlen hnone
  refine ⟨mallocs, ?_⟩
  unfold Creation.init Infiniband.postChunksToRq
  dsimp only
  rw [hqp]
  dsimp only
  rw [if_neg hlen.ne', hfill]
  rfl

theorem createQueuePair_dry (config : Config) (q : Nat) (w : World) (hdry : w.Dry config) :
    ∃ c, Creation.createQueuePair config q .created w.ib = .ok (none, c) ∧ c.qp = .destroyed ∧
      c.ib.qps q = none ∧ c.ib.free = w.ib.free ∧ c.ib.made = w.ib.made := by
  obtain ⟨mallocs, hinit⟩ := init_dry config q w hdry
  have hqp : (Creation.new config q w.ib).ib.qps q = some ⟨config.rxQueueLen, [], false, [], []⟩ :=
    Function.update_self ..
  refine ⟨⟨{ (Creation.new config q w.ib).ib with
      mallocs, qps := Function.update (Creation.new config q w.ib).ib.qps q none }, .destroyed⟩,
    ?_, rfl, Function.update_self .., rfl, rfl⟩
  unfold Creation.createQueuePair
  rw [hinit]
  unfold Creation.destroy Infiniband.deleteQp
  simp only [ok_bind, hqp]
  rfl

/-- The connection that is left with no queue pair. -/
theorem create_dry (config : Config) (k q : Nat) (isServer : Bool) (w : World)
    (hdry : w.Dry config) :
    ∃ w', w.create config k q isServer .created = .ok w' ∧ w'.qpConns = w.qpConns ∧
      w'.socks k = some ⟨none, .new config isServer 0, [], [], 0, false⟩ := by
  obtain ⟨c, hcreate, -⟩ := createQueuePair_dry config q w hdry
  refine ⟨{ w with ib := c.ib }.setSock k ⟨none, .new config isServer 0, [], [], 0, false⟩, ?_,
    rfl, Function.update_self ..⟩
  rw [create_eq, hcreate]
  rfl

/-- A connection that never had a queue pair is destroyed without harm, as verbs gives no queue
pair the number 0. -/
theorem destroy_without_qp (switched : Bool) {ep : Endpoint} (hzero : w.qpConns 0 = none)
    (hs : w.socks k = some ⟨none, ep, [], [], 0, false⟩) :
    ∃ w', w.destroy switched k = .ok w' := by
  have hsock : w.sock k = .ok ⟨none, ep, [], [], 0, false⟩ := by rw [sock, hs]
  have hscheduled : w.scheduleQpDestroy switched 0 = .ok w := by
    rw [scheduleQpDestroy, if_pos (by rw [hzero]; rfl)]
  refine ⟨{ w with socks := Function.update w.socks k none }, ?_⟩
  unfold destroy
  rw [hsock]
  simp only [ok_bind, Option.getD_none, hscheduled]
  rfl

/-- The caller that connects does not look at the queue pair: it learns that there is none only
where the TCP socket fails. -/
theorem connect_dry_iff (config : Config) (k q : Nat) (switched : Bool) (dial : Dial) (w : World)
    (hdry : w.Dry config) (hzero : w.qpConns 0 = none) :
    (∃ r w', w.connect config k q .created switched dial = .ok (r, w') ∧ r < 0) ↔ dial.Fails := by
  obtain ⟨w₁, hcreate, hconns, hs⟩ := create_dry config k q false w hdry
  have hsock : w₁.sock k = .ok ⟨none, .new config false 0, [], [], 0, false⟩ := by rw [sock, hs]
  obtain ⟨w₂, hdestroy⟩ := destroy_without_qp switched (hconns ▸ hzero) hs
  have hfailed (errno : ℕ+) (htry : w₁.tryConnect k dial = .ok (-errno, w₁)) :
      ∃ r w', w.connect config k q .created switched dial = .ok (r, w') ∧ r < 0 := by
    have hneg : (-errno : Int) < 0 := by
      have := errno.pos
      omega
    refine ⟨-errno, w₂, ?_, hneg⟩
    unfold connect
    rw [hcreate, ok_bind, htry, ok_bind]
    dsimp only
    rw [if_pos hneg, hdestroy]
    rfl
  unfold Dial.Fails
  cases hconnect : dial.connect with
  | some errno =>
      refine iff_of_true (hfailed errno ?_) (.inl rfl)
      rw [tryConnect, hconnect]
  | none =>
      cases hoptions : dial.setOptions with
      | some errno =>
          refine iff_of_true (hfailed errno ?_) (.inr rfl)
          rw [tryConnect, hconnect, hoptions]
      | none =>
          refine iff_of_false ?_ (by simp)
          rintro ⟨r, w', hrun, hneg⟩
          unfold connect at hrun
          rw [hcreate, ok_bind, tryConnect, hconnect, hoptions] at hrun
          dsimp only at hrun
          split at hrun
          · -- the connection is reported as made
            cases Except.ok.inj hrun
            exact absurd hneg (by decide)
          · rw [handleConnectionEstablished, hsock] at hrun
            cases hrun

theorem accept_dry (config : Config) (k q : Nat) (calls : Accept) (w : World)
    (hdry : w.Dry config) :
    ∃ r w', w.accept config k q .created calls = .ok (r, w') ∧ r < 0 := by
  obtain ⟨w₁, hcreate, -, hs⟩ := create_dry config k q true w hdry
  have hsock : w₁.sock k = .ok ⟨none, .new config true 0, [], [], 0, false⟩ := by rw [sock, hs]
  unfold accept
  cases calls.accept <|> calls.setNonblock <|> calls.setOptions with
  | some errno =>
      have := errno.pos
      exact ⟨-errno, w, rfl, by omega⟩
  | none =>
      refine ⟨-1, w₁, ?_, by decide⟩
      dsimp only
      rw [hcreate, ok_bind, hsock, ok_bind]
      rfl

/-- A failure of `init` is clean exactly when it comes from a dry pool, and the TCP socket of a
connection that is being made fails as well. -/
theorem failed_creation_leaves_nothing_iff (config : Config) (w : World)
    (h : (machine config).Reachable w) (k q : Nat) (answer : InitAnswer) (switched : Bool)
    (dial : Dial) (calls : Accept) :
    w.LeavesNothing config k q answer switched dial calls ↔
      answer = .created ∧ (w.Dry config → dial.Fails) := by
  have hzero : w.qpConns 0 = none := by
    cases hconn : w.qpConns 0 with
    | none => rfl
    | some csi => exact absurd ((held_of_reachable h).registered.known hconn).1 (by decide)
  constructor
  · intro hclean
    cases answer with
    | notCreated =>
        obtain ⟨⟨c, hcreate, -⟩, -⟩ := hclean _ _ rfl (by decide)
        cases hcreate
    | notInit =>
        obtain ⟨⟨c, hcreate, -⟩, -⟩ := hclean _ _ rfl (by decide)
        cases hcreate
    | created =>
        refine ⟨rfl, fun hdry => ?_⟩
        obtain ⟨mallocs, hinit⟩ := init_dry config q w hdry
        obtain ⟨-, hconnect, -⟩ := hclean _ _ hinit (by decide)
        exact (connect_dry_iff config k q switched dial w hdry hzero).mp hconnect
  · rintro ⟨rfl, hfails⟩ r c hinit hr
    have hdry : w.Dry config := by
      by_contra hwet
      exact hr ((init_created config q w hwet).value hinit)
    refine ⟨?_, (connect_dry_iff config k q switched dial w hdry hzero).mpr (hfails hdry),
      accept_dry config k q calls w hdry⟩
    obtain ⟨c', hcreate, hqp, hgone, hfree, hmade⟩ := createQueuePair_dry config q w hdry
    refine ⟨c', hcreate, by rw [hqp]; decide, hgone, fun chunk hchunk => ?_⟩
    rw [hfree]
    rcases hchunk with hchunk | ⟨hge, hlt⟩
    · exact hchunk
    · omega

/-- The allocator gives nothing. -/
def dryConfig : Config := { smallConfig with block := fun _ => 0 }

theorem failed_creation_leaves_nothing_iff_refused :
    fresh.LeavesNothing dryConfig 0 1 .created true ⟨false, some 111, none, .good⟩
      ⟨none, none, none⟩ :=
  (failed_creation_leaves_nothing_iff dryConfig fresh (.start fresh_start) 0 1 .created true
    ⟨false, some 111, none, .good⟩ ⟨none, none, none⟩).mpr ⟨rfl, fun _ => .inl rfl⟩

/-- The destructor reads the number of a verbs queue pair that was not created, and destroys one
that `init` has destroyed. Where the pool is dry, a connection without a queue pair is reported as
made, or its queue pair is used. -/
theorem failed_creation_leaves_something :
    ¬ fresh.LeavesNothing smallConfig 0 1 .notCreated true ⟨true, none, none, .good⟩
        ⟨none, none, none⟩ ∧
      Creation.createQueuePair smallConfig 1 .notCreated fresh.ib = .error .nullVerbsQp ∧
      Creation.createQueuePair smallConfig 1 .notInit fresh.ib = .error .destroyedTwice ∧
      (∃ w s, fresh.connect dryConfig 0 1 .created true ⟨true, none, none, .good⟩ = .ok (0, w) ∧
        w.socks 0 = some s ∧ s.qp = none) ∧
      fresh.connect dryConfig 0 1 .created true ⟨false, none, none, .good⟩ =
        .error .nullVerbsQp := by
  refine ⟨fun hclean => ?_, rfl, rfl, ⟨_, _, rfl, rfl, rfl⟩, rfl⟩
  obtain ⟨⟨c, hcreate, -⟩, -⟩ := hclean _ _ rfl (by decide)
  cases hcreate

end World

end RdmaCapsule.Core
