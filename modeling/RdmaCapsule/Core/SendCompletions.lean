import Mathlib
import RdmaCapsule.Core.Ownership

/-! The batches of send completions that end well, and the calls of `txc_callback` that are
made for them. `handle_tx_event` calls the callback before it knows what the `wr_id` of a
completion is, and before it knows whether there is a connection to call it on. -/
namespace RdmaCapsule.Core.World

open RdmaCapsule.Foundation

variable {w w' : World} {response : TxWc}

/-- The connection of a queue pair, unless it is scheduled for destruction. -/
def liveConn (w : World) (q : Nat) : Option Nat :=
  match w.getConnLockless q with
  | .ok conn => conn
  | .error _ => none

def dataChunk (response : TxWc) : Option Nat :=
  match response.wr with
  | .send (.chunk index) => some index
  | _ => none

def dataChunks (cqe : List TxWc) : List Nat := cqe.filterMap dataChunk

/-- The call that a completion should give rise to. -/
def dueCall (w : World) (response : TxWc) : Option (Nat × SendWr) :=
  (dataChunk response).bind fun index =>
    (w.liveConn response.qpNum).map fun k => (k, .chunk index)

/-- A completion of a data chunk of the pool, of a FIN, or of a beacon. -/
def Sent (w : World) (response : TxWc) : Prop :=
  response.wr = .beacon ∨ response.status = .success ∧
    (response.wr = .send (.fin response.qpNum) ∨
      ∃ index, response.wr = .send (.chunk index) ∧ w.tx.isValidChunk index = true)

/-- The loop calls the callback for the data chunks of live connections, and only for them;
the pool is as it was. Then the data chunks are returned. -/
def CallbacksExact (w : World) (cqe : List TxWc) : Prop :=
  ∃ w₁ w', cqe.foldlM handleTxOne (w, []) = .ok (w₁, dataChunks cqe) ∧ w₁.tx = w.tx ∧
    w₁.callbacks = w.callbacks ++ cqe.filterMap w.dueCall ∧
    w.handleTxEvent cqe = .ok w' ∧ w'.callbacks = w₁.callbacks ∧
    w'.tx = w.tx.takeBack (dataChunks cqe)

/-- There is a live connection, and its callback has been set. -/
def Callable (w : World) (q : Nat) : Prop :=
  ∃ k s, w.getConnLockless q = .ok (some k) ∧ w.socks k = some s ∧ s.txcCallback = true

/-- A beacon, or a data chunk of a connection whose callback can be called. -/
def Harmless (w : World) (response : TxWc) : Prop :=
  response.wr = .beacon ∨
    ∃ index, response.wr = .send (.chunk index) ∧ w.Callable response.qpNum

/-- The call that the loop makes for a completion. -/
def madeCall (w : World) (response : TxWc) : Option (Nat × SendWr) :=
  match response.wr with
  | .beacon => none
  | .send wr => (w.liveConn response.qpNum).map fun k => (k, wr)

/-- What the loop reads of the state. Beacons take entries out of `qp_conns`, but only those
under which no connection is found. -/
structure Same (w w' : World) : Prop where
  socks : w'.socks = w.socks
  tx : w'.tx = w.tx
  ib : w'.ib = w.ib
  conns : ∀ q, w'.getConnLockless q = w.getConnLockless q

/-- A beacon comes from a queue pair that is marked dead. -/
def FromDead (w : World) (response : TxWc) : Prop :=
  response.wr = .beacon → ∃ qp, w.ib.qps response.qpNum = some qp ∧ qp.dead = true

theorem getConnLockless_enqueueDeadQp {q : Nat} {qp : QueuePair} (hqp : w.ib.qps q = some qp)
    (hdead : qp.dead = true) (q' : Nat) :
    (w.enqueueDeadQp q).getConnLockless q' = w.getConnLockless q' := by
  unfold enqueueDeadQp
  split
  · unfold getConnLockless
    by_cases hq : q' = q
    · subst hq
      dsimp only
      rw [Function.update_self, hqp]
      cases w.qpConns q' <;> simp [hdead]
    · simp only [Function.update_of_ne hq]
  · rfl

theorem Same.enqueueDeadQp (h : Same w w') {q : Nat} {qp : QueuePair}
    (hqp : w.ib.qps q = some qp) (hdead : qp.dead = true) : Same w (w'.enqueueDeadQp q) := by
  have htx : (w'.enqueueDeadQp q).tx = w'.tx := by
    unfold World.enqueueDeadQp
    split <;> rfl
  have hqp' : w'.ib.qps q = some qp := by rw [h.ib, hqp]
  refine ⟨(enqueueDeadQp_socks w' q).trans h.socks, htx.trans h.tx,
    (enqueueDeadQp_ib w' q).trans h.ib, fun q' => ?_⟩
  rw [getConnLockless_enqueueDeadQp hqp' hdead, h.conns]

theorem enqueueDeadQp_callbacks (w : World) (q : Nat) :
    (w.enqueueDeadQp q).callbacks = w.callbacks := by
  unfold enqueueDeadQp
  split <;> rfl

/-- One completion that the loop can deal with: a call is made for everything but a beacon. -/
theorem handleTxOne_callable (chunks : List Nat) (h : Same w w') (hsent : w.Sent response) (hdead : w.FromDead response)
    (hcallable : response.wr = .beacon ∨ w.Callable response.qpNum) :
    ∃ w'', handleTxOne (w', chunks) response = .ok (w'', chunks ++ (dataChunk response).toList) ∧
      Same w w'' ∧ w''.callbacks = w'.callbacks ++ (w.madeCall response).toList := by
  obtain ⟨q, wr, status⟩ := response
  cases wr with
  | beacon =>
      obtain ⟨qp, hqp, hmark⟩ := hdead rfl
      refine ⟨w'.enqueueDeadQp q, ?_, h.enqueueDeadQp hqp hmark, ?_⟩
      · simp [handleTxOne, dataChunk, pure, Except.pure]
      · simp [enqueueDeadQp_callbacks, madeCall]
  | send wr =>
      obtain ⟨k, s, hconn, hs, hset⟩ := hcallable.resolve_left (by simp)
      obtain ⟨rfl, hwr⟩ := hsent.resolve_left (by simp)
      dsimp only at hconn hwr
      have hlive : w.liveConn q = some k := by rw [liveConn, hconn]
      have hconn' : w'.getConnLockless q = .ok (some k) := by rw [h.conns, hconn]
      have hs' : w'.sock k = .ok s := by rw [sock, h.socks, hs]
      refine ⟨{ w' with callbacks := w'.callbacks ++ [(k, wr)] }, ?_,
        ⟨h.socks, h.tx, h.ib, h.conns⟩, by simp [madeCall, hlive]⟩
      unfold handleTxOne
      dsimp only
      rw [if_neg (by simp), hconn', ok_bind]
      dsimp only
      rw [hs', ok_bind, if_neg (by simp [hset])]
      cases wr with
      | chunk index =>
          obtain ⟨index', hindex, hvalid⟩ := hwr.resolve_left (by simp)
          cases hindex
          dsimp only
          rw [h.tx, if_pos hvalid]
          rfl
      | fin q' =>
          rcases hwr with hfin | ⟨index, hindex, -⟩
          · cases hfin
            simp [dataChunk, pure, Except.pure]
          · cases hindex

/-- Nothing can be called: the process stops, or what it does next is not defined. -/
theorem handleTxOne_not_callable (chunks : List Nat) (h : Same w w')
    (hcallable : ¬ (response.wr = .beacon ∨ w.Callable response.qpNum)) :
    ∃ fault, handleTxOne (w', chunks) response = .error fault := by
  rw [not_or] at hcallable
  obtain ⟨hsend, hnone⟩ := hcallable
  obtain ⟨q, wr, status⟩ := response
  cases wr with
  | beacon => exact absurd rfl hsend
  | send wr =>
      unfold handleTxOne
      dsimp only at hnone ⊢
      split
      · exact ⟨_, rfl⟩
      · rw [h.conns]
        cases hconn : w.getConnLockless q with
        | error fault => exact ⟨fault, rfl⟩
        | ok conn =>
            rw [ok_bind]
            cases conn with
            | none => exact ⟨_, rfl⟩
            | some k =>
                dsimp only
                cases hs : w.socks k with
                | none => exact ⟨_, by rw [sock, h.socks, hs]; rfl⟩
                | some s =>
                    have hunset : s.txcCallback = false := by
                      by_contra hset
                      exact hnone ⟨k, s, hconn, hs, by simpa using hset⟩
                    rw [sock, h.socks, hs, ok_bind, if_pos (by simp [hunset])]
                    exact ⟨_, rfl⟩

/-- The loop over a batch whose callbacks can all be called. -/
theorem handleTx_callable (chunks : List Nat) (cqe : List TxWc) (h : Same w w')
    (hsent : ∀ response ∈ cqe, w.Sent response) (hdead : ∀ response ∈ cqe, w.FromDead response)
    (hcallable : ∀ response ∈ cqe, response.wr = .beacon ∨ w.Callable response.qpNum) :
    ∃ w₁, cqe.foldlM handleTxOne (w', chunks) = .ok (w₁, chunks ++ dataChunks cqe) ∧
      Same w w₁ ∧ w₁.callbacks = w'.callbacks ++ cqe.filterMap w.madeCall := by
  induction cqe generalizing w' chunks with
  | nil => exact ⟨w', by simp [dataChunks, pure, Except.pure], h, by simp⟩
  | cons response rest ih =>
      obtain ⟨hsent₀, hsent⟩ := List.forall_mem_cons.mp hsent
      obtain ⟨hdead₀, hdead⟩ := List.forall_mem_cons.mp hdead
      obtain ⟨hcallable₀, hcallable⟩ := List.forall_mem_cons.mp hcallable
      obtain ⟨w'', hrun, hsame, hcalls⟩ :=
        handleTxOne_callable chunks h hsent₀ hdead₀ hcallable₀
      obtain ⟨w₁, hloop, hsame₁, hcalls₁⟩ := ih _ hsame hsent hdead hcallable
      refine ⟨w₁, ?_, hsame₁, ?_⟩
      · rw [List.foldlM_cons, hrun, ok_bind, hloop]
        cases hchunk : dataChunk response <;> simp [dataChunks, hchunk]
      · rw [hcalls₁, hcalls]
        cases hcall : w.madeCall response <;> simp [hcall]

theorem handleTx_not_callable (chunks : List Nat) (cqe : List TxWc) (h : Same w w')
    (hsent : ∀ response ∈ cqe, w.Sent response) (hdead : ∀ response ∈ cqe, w.FromDead response)
    (hcallable : ¬ ∀ response ∈ cqe, response.wr = .beacon ∨ w.Callable response.qpNum) :
    ∃ fault, cqe.foldlM handleTxOne (w', chunks) = .error fault := by
  induction cqe generalizing w' chunks with
  | nil => exact absurd (by simp) hcallable
  | cons response rest ih =>
      obtain ⟨hsent₀, hsent⟩ := List.forall_mem_cons.mp hsent
      obtain ⟨hdead₀, hdead⟩ := List.forall_mem_cons.mp hdead
      rw [List.foldlM_cons]
      by_cases hcallable₀ : response.wr = .beacon ∨ w.Callable response.qpNum
      · obtain ⟨w'', hrun, hsame, -⟩ :=
          handleTxOne_callable chunks h hsent₀ hdead₀ hcallable₀
        rw [hrun, ok_bind]
        exact ih _ hsame hsent hdead fun hrest =>
          hcallable (List.forall_mem_cons.mpr ⟨hcallable₀, hrest⟩)
      · obtain ⟨fault, hrun⟩ := handleTxOne_not_callable chunks h hcallable₀
        exact ⟨fault, by rw [hrun]; rfl⟩

/-- The calls are those that are due as long as every completion is harmless. -/
theorem madeCall_eq_dueCall (h : w.Harmless response) : w.madeCall response = w.dueCall response := by
  obtain ⟨q, wr, status⟩ := response
  rcases h with hbeacon | ⟨index, hwr, -⟩
  · cases hbeacon
    rfl
  · cases hwr
    rfl

/-- A call with something that is not a data chunk is not due. -/
theorem harmless_of_calls {cqe : List TxWc}
    (hcallable : ∀ response ∈ cqe, response.wr = .beacon ∨ w.Callable response.qpNum)
    (hcalls : cqe.filterMap w.madeCall = cqe.filterMap w.dueCall) :
    ∀ response ∈ cqe, w.Harmless response := by
  intro response hmem
  rcases hcallable response hmem with hbeacon | hcall
  · exact .inl hbeacon
  · obtain ⟨k, s, hconn, hs, hset⟩ := hcall
    have hlive : w.liveConn response.qpNum = some k := by rw [liveConn, hconn]
    cases hwr : response.wr with
    | beacon => exact .inl hwr
    | send wr =>
        cases wr with
        | chunk index => exact .inr ⟨index, hwr, k, s, hconn, hs, hset⟩
        | fin q =>
            have hmade : (k, SendWr.fin q) ∈ cqe.filterMap w.madeCall :=
              List.mem_filterMap.mpr ⟨response, hmem, by simp [madeCall, hwr, hlive]⟩
            rw [hcalls] at hmade
            obtain ⟨response', -, hdue⟩ := List.mem_filterMap.mp hmade
            obtain ⟨index, -, hconn'⟩ := Option.bind_eq_some_iff.mp hdue
            simp at hconn'

theorem postTxBuffer_tx (w : World) (chunks : List Nat) :
    (w.postTxBuffer chunks).tx = w.tx.takeBack chunks := by
  unfold postTxBuffer
  split
  · rename_i hnone
    rw [hnone]
    rfl
  · rfl

theorem postTxBuffer_callbacks (w : World) (chunks : List Nat) :
    (w.postTxBuffer chunks).callbacks = w.callbacks := by
  unfold postTxBuffer
  split <;> rfl

theorem callbacks_exact_iff_harmless (cqe : List TxWc)
    (hsent : ∀ response ∈ cqe, w.Sent response) (hdead : ∀ response ∈ cqe, w.FromDead response) :
    w.CallbacksExact cqe ↔ ∀ response ∈ cqe, w.Harmless response := by
  have hsame : Same w w := ⟨rfl, rfl, rfl, fun _ => rfl⟩
  constructor
  · rintro ⟨w₁, w', hrun, -, hcalls, -⟩
    have hcallable : ∀ response ∈ cqe, response.wr = .beacon ∨ w.Callable response.qpNum := by
      by_contra hcallable
      obtain ⟨fault, herror⟩ :=
        handleTx_not_callable [] cqe hsame hsent hdead hcallable
      cases hrun.symm.trans herror
    obtain ⟨w₂, hloop, -, hmade⟩ := handleTx_callable [] cqe hsame hsent hdead hcallable
    cases hrun.symm.trans hloop
    exact harmless_of_calls hcallable (List.append_cancel_left (hmade.symm.trans hcalls))
  · intro hharmless
    obtain ⟨w₁, hloop, hsame₁, hmade⟩ := handleTx_callable [] cqe hsame hsent hdead
      fun response hmem => (hharmless response hmem).imp_right fun ⟨_, _, hcall⟩ => hcall
    rw [List.nil_append] at hloop
    refine ⟨w₁, w₁.postTxBuffer (dataChunks cqe), hloop, hsame₁.tx, ?_, ?_,
      postTxBuffer_callbacks _ _, by rw [postTxBuffer_tx, hsame₁.tx]⟩
    · rw [hmade]
      congr 1
      exact List.filterMap_congr fun response hmem => madeCall_eq_dueCall (hharmless response hmem)
    · rw [handleTxEvent, hloop]
      rfl

theorem getConnLockless_completeTx (w : World) (cqe : List TxWc) (q : Nat) :
    (w.completeTx cqe).getConnLockless q = w.getConnLockless q := by
  unfold getConnLockless completeTx
  dsimp only
  cases w.qpConns q with
  | none => rfl
  | some csi => cases hqp : w.ib.qps q <;> simp

/-- A batch of successful data chunks, FINs and beacons leads to the calls that are due, and to
no others, exactly when every completion in it is a beacon or a data chunk of a live connection
whose callback has been set. -/
theorem txc_callbacks_exact_iff (config : Config) (w : World) (h : (machine config).Reachable w)
    (cqe : List TxWc) (henabled : w.Enabled (.handleTxEvent cqe))
    (hsent : ∀ response ∈ cqe, w.Sent response) :
    (w.completeTx cqe).CallbacksExact cqe ↔ ∀ response ∈ cqe, w.Harmless response := by
  have hheld := held_of_reachable h
  have hdead : ∀ response ∈ cqe, (w.completeTx cqe).FromDead response := by
    intro response hmem hbeacon
    obtain ⟨qp, hqp, hprefix⟩ := henabled response hmem
    have hposted : TxWr.beacon ∈ qp.sends :=
      hprefix.subset (List.mem_map.mpr ⟨response, List.mem_filter.mpr ⟨hmem, by simp⟩, hbeacon⟩)
    refine ⟨{ qp with sends := qp.sends.drop (cqe.countP (·.qpNum = response.qpNum)) }, ?_,
      (hheld.registered.wf hqp).beacon hposted⟩
    simp only [completeTx, hqp, Option.map_some]
  have hharmless (response : TxWc) :
      (w.completeTx cqe).Harmless response ↔ w.Harmless response := by
    simp only [Harmless, Callable, getConnLockless_completeTx]
    rfl
  have hsent' : ∀ response ∈ cqe, (w.completeTx cqe).Sent response := hsent
  rw [callbacks_exact_iff_harmless cqe hsent' hdead]
  simp only [hharmless]

/-- A pool of one send chunk. -/
def freshWithPool : World := { fresh with tx := { Cluster.new 4 with numChunk := 1 } }

/-- What a server with queue pair 7 answers. -/
def answer : CmMsg := ⟨⟨0, 7, 520, 0, Vector.replicate 16 0⟩, ⟨0, 0, 0, 0⟩⟩

/-- A connection that is established and has sent a chunk. -/
theorem reachable_one_chunk :
    ∃ w s, (machine smallConfig).Reachable w ∧
      w.ib.qps 1 = some ⟨1, [0], false, [0], [.send (.chunk 0)]⟩ ∧ w.tx.isValidChunk 0 = true ∧
      w.getConnLockless 1 = .ok (some 0) ∧ w.socks 0 = some s ∧ s.txcCallback = true := by
  have hfresh : (machine smallConfig).Reachable freshWithPool := .start fresh_start
  have hcreated := hfresh.next (.create 0 1 false .created) ⟨rfl, rfl, by decide, by decide⟩ rfl
  have hset := hcreated.next (.setTxcCallback 0) trivial rfl
  have hup := hset.next (.call 0 (.handleConnection (.message answer)) .good) trivial rfl
  have hposted := hup.next (.call 0 (.sendChunks [0]) .good) trivial rfl
  exact ⟨_, _, hposted, rfl, rfl, rfl, rfl, rfl⟩

theorem txc_callbacks_exact_iff_one_chunk :
    ∃ w, (machine smallConfig).Reachable w ∧
      (w.completeTx [⟨1, .send (.chunk 0), .success⟩]).CallbacksExact
        [⟨1, .send (.chunk 0), .success⟩] := by
  obtain ⟨w, s, hposted, hqp, hvalid, hconn, hs, hset⟩ := reachable_one_chunk
  refine ⟨w, hposted, (txc_callbacks_exact_iff smallConfig w hposted _ ?_ ?_).mpr ?_⟩
  · intro response hmem
    cases List.mem_singleton.mp hmem
    exact ⟨_, hqp, by decide⟩
  · intro response hmem
    cases List.mem_singleton.mp hmem
    exact .inr ⟨rfl, .inr ⟨0, rfl, hvalid⟩⟩
  · intro response hmem
    cases List.mem_singleton.mp hmem
    exact .inr ⟨0, rfl, 0, s, hconn, hs, hset⟩

/-- A connection that has sent its FIN. -/
theorem reachable_fin :
    ∃ w, (machine smallConfig).Reachable w ∧
      w.ib.qps 1 = some ⟨1, [0], false, [0], [.send (.fin 1)]⟩ := by
  have hfresh : (machine smallConfig).Reachable freshWithPool := .start fresh_start
  have hcreated := hfresh.next (.create 0 1 false .created) ⟨rfl, rfl, by decide, by decide⟩ rfl
  have hset := hcreated.next (.setTxcCallback 0) trivial rfl
  have hclosed := hset.next (.call 0 .close .good) trivial rfl
  exact ⟨_, hclosed, rfl⟩

/-- A connection that was destroyed when its chunk had been sent but not been polled. -/
theorem reachable_destroyed :
    ∃ w, (machine smallConfig).Reachable w ∧
      w.ib.qps 1 = some ⟨1, [0], true, [0], [.send (.chunk 0), .beacon]⟩ ∧
      w.tx.isValidChunk 0 = true ∧ (w.completeTx [⟨1, .send (.chunk 0), .success⟩]).handleTxEvent
        [⟨1, .send (.chunk 0), .success⟩] = .error .nullConnection := by
  have hfresh : (machine smallConfig).Reachable freshWithPool := .start fresh_start
  have hcreated := hfresh.next (.create 0 1 false .created) ⟨rfl, rfl, by decide, by decide⟩ rfl
  have hup := hcreated.next (.call 0 (.handleConnection (.message answer)) .good) trivial rfl
  have hposted := hup.next (.call 0 (.sendChunks [0]) .good) trivial rfl
  have hdead := hposted.next (.destroy 0 true) trivial rfl
  exact ⟨_, hdead, rfl, rfl, rfl⟩

/-- The callback is called with the queue pair for a FIN, and through a null connection for a
data chunk of a connection that is gone. -/
theorem txc_callbacks_not_exact :
    (∃ w, (machine smallConfig).Reachable w ∧
      w.Enabled (.handleTxEvent [⟨1, .send (.fin 1), .success⟩]) ∧
      ¬ (w.completeTx [⟨1, .send (.fin 1), .success⟩]).CallbacksExact
        [⟨1, .send (.fin 1), .success⟩]) ∧
    ∃ w, (machine smallConfig).Reachable w ∧
      w.Enabled (.handleTxEvent [⟨1, .send (.chunk 0), .success⟩]) ∧
      w.tx.isValidChunk 0 = true ∧ (w.completeTx [⟨1, .send (.chunk 0), .success⟩]).handleTxEvent
        [⟨1, .send (.chunk 0), .success⟩] = .error .nullConnection := by
  constructor
  · obtain ⟨w, hclosed, hqp⟩ := reachable_fin
    refine ⟨w, hclosed, ?_, fun hexact => ?_⟩
    · intro response hmem
      cases List.mem_singleton.mp hmem
      exact ⟨_, hqp, by decide⟩
    · have hiff := callbacks_exact_iff_harmless (w := w.completeTx [⟨1, .send (.fin 1), .success⟩])
        [⟨1, .send (.fin 1), .success⟩]
        (fun response hmem => by
          cases List.mem_singleton.mp hmem
          exact .inr ⟨rfl, .inl rfl⟩)
        (fun response hmem hbeacon => by
          cases List.mem_singleton.mp hmem
          cases hbeacon)
      rcases hiff.mp hexact _ List.mem_cons_self with hbeacon | ⟨index, hwr, -⟩
      · cases hbeacon
      · cases hwr
  · obtain ⟨w, hdead, hqp, hvalid, hrun⟩ := reachable_destroyed
    refine ⟨w, hdead, ?_, hvalid, hrun⟩
    intro response hmem
    cases List.mem_singleton.mp hmem
    exact ⟨_, hqp, by decide⟩

end RdmaCapsule.Core.World
