import RdmaCapsule.Core.Holding

/-! The two completion handlers of the dispatcher. A batch is handled one
completion after the other; in between, the completions still to come are known
to be due. -/
namespace RdmaCapsule.Core

open RdmaCapsule.Foundation

/-- Where `pass_wc` puts what is in a place. -/
def Place.afterPass : Place Slot → Place Slot
  | .out (.polled k) => .out (.wc k)
  | p => p

theorem Place.afterPass_qp (p : Place Slot) : p.afterPass.qp = p.qp := by
  rcases p with _ | q | k | k | k <;> rfl

namespace World

variable {w w' : World} {out : Slot → List Nat} {polled : Nat → List RxWc} {k q c : Nat}
  {s s' : Socket} {config : Config}

/-- A completion that is still to be handled: its chunk is in the queue of its
queue pair, and verbs will not complete it again. -/
def Due (w : World) (response : RxWc) : Prop :=
  ∃ qp, w.ib.qps response.qpNum = some qp ∧ response.chunk ∈ qp.recvQueue ∧
    response.chunk ∉ qp.posted

theorem Due.post {response : RxWc} (h : w.Due response) {qp qp' : QueuePair} {count : Nat}
    (hqp : w.ib.qps q = some qp) (hreposted : Reposted qp qp' count)
    (hqps : w'.ib.qps = Function.update w.ib.qps q (some qp')) : w'.Due response := by
  obtain ⟨qp₀, hqp₀, hin, hnot⟩ := h
  by_cases hq : response.qpNum = q
  · rw [hq] at hqp₀
    cases Option.some.inj (hqp₀.symm.trans hqp)
    exact ⟨qp', by rw [hqps, hq, Function.update_self], hreposted.keeps _ hin,
      fun hposted => hnot (hreposted.fresh _ hin hposted)⟩
  · exact ⟨qp₀, by rw [hqps, Function.update_of_ne hq, hqp₀], hin, hnot⟩

theorem Due.erase {response : RxWc} (h : w.Due response) {qp : QueuePair}
    (hqp : w.ib.qps q = some qp) (hne : response.chunk ≠ c)
    (hqps : w'.ib.qps = Function.update w.ib.qps q
      (some { qp with recvQueue := qp.recvQueue.erase c })) : w'.Due response := by
  obtain ⟨qp₀, hqp₀, hin, hnot⟩ := h
  by_cases hq : response.qpNum = q
  · rw [hq] at hqp₀
    cases Option.some.inj (hqp₀.symm.trans hqp)
    refine ⟨{ qp with recvQueue := qp.recvQueue.erase c }, ?_,
      (List.mem_erase_of_ne hne).mpr hin, hnot⟩
    rw [hqps, hq, Function.update_self]
  · exact ⟨qp₀, by rw [hqps, Function.update_of_ne hq, hqp₀], hin, hnot⟩

/-- `recall_chunk_to_pool` of a chunk that a completion gives back. -/
theorem Held.recallDue (h : w.Held out) {response : RxWc} (hdue : w.Due response) :
    ∃ ib qp, w.recallChunkToPool response.chunk = .ok { w with ib } ∧
      ({ w with ib } : World).Held out ∧ w.ib.qps response.qpNum = some qp ∧
      ib.qps = Function.update w.ib.qps response.qpNum
        (some { qp with recvQueue := qp.recvQueue.erase response.chunk }) := by
  obtain ⟨qp, hqp, hin, hnot⟩ := hdue
  obtain ⟨ib, hrun, hplaced, hqps⟩ := h.placed.recallChunkToPool_rq hqp hin
  refine ⟨ib, qp, ?_, ⟨hplaced, ?_⟩, hqp, hqps⟩
  · unfold recallChunkToPool
    rw [hrun]
    rfl
  · have hreg := h.registered.updateQp hqp ((h.registered.wf hqp).erase hnot) rfl
    unfold Registered
    exact hqps ▸ hreg

/-- `remove_rq_wr` and `clear_qp` of a chunk that is passed on to `k`. -/
theorem Held.passOn (h : w.Held (w.out polled)) {response : RxWc} (hdue : w.Due response)
    (k : Nat) :
    ∃ ib qp, w.ib.removeRqWr response.qpNum response.chunk = .ok ib ∧
      w.ib.qps response.qpNum = some qp ∧
      ib.qps = Function.update w.ib.qps response.qpNum
        (some { qp with recvQueue := qp.recvQueue.erase response.chunk }) ∧
      ({ w with ib := ib.clearQp response.chunk } : World).Held
        (w.out (Function.update polled k (polled k ++ [response]))) := by
  obtain ⟨qp, hqp, hin, hnot⟩ := hdue
  have hqps : (w.ib.modifyQp response.qpNum fun qp => { qp with
      recvQueue := qp.recvQueue.erase response.chunk }).qps = Function.update w.ib.qps
        response.qpNum (some { qp with recvQueue := qp.recvQueue.erase response.chunk }) := by
    simp [hqp]
  refine ⟨_, qp, Infiniband.removeRqWr_eq hqp hin, hqp, hqps,
    ⟨h.placed.dequeue hqp hin (.polled k) ?_ ?_, ?_⟩⟩
  · simp only [World.out, Function.update_self, List.map_append, List.map_singleton]
    exact List.perm_append_comm
  · intro o hne
    cases o with
    | wc k' => rfl
    | buffers k' => rfl
    | polled k' =>
        have hk : k' ≠ k := fun heq => hne (congrArg Slot.polled heq)
        simp [World.out, Function.update_of_ne hk]
  · have hreg := h.registered.updateQp hqp ((h.registered.wf hqp).erase hnot) rfl
    unfold Registered
    exact hqps ▸ hreg

/-- The state of `handle_rx_event` with some of the batch still to come. -/
structure Polling (rest : List RxWc) (state : World × (Nat → List RxWc)) : Prop where
  held : state.1.Held (state.1.out state.2)
  nodup : (rest.map (·.chunk)).Nodup
  due : ∀ response ∈ rest, state.1.Due response
  known : ∀ k, state.2 k ≠ [] → ∃ s, state.1.socks k = some s

theorem Registered.getConnLockless (h : w.Registered) (q : Nat) :
    ∃ conn, w.getConnLockless q = .ok conn ∧
      (∀ k, conn = some k → w.sockQps k = some q ∧ w.getQpLockless q = some q) ∧
      (conn = none → ∀ k, w.sockQps k ≠ some q) := by
  unfold World.getConnLockless
  cases hcsi : w.qpConns q with
  | none =>
      refine ⟨none, rfl, fun k hk => (nomatch hk), fun _ k hk => ?_⟩
      exact nomatch hcsi.symm.trans (h.socket hk).1
  | some csi =>
      obtain ⟨_, qp, hqp⟩ := h.known hcsi
      simp only [hqp]
      refine ⟨_, rfl, fun k hk => ⟨?_, by simp [getQpLockless, hcsi]⟩, fun hnone k hk => ?_⟩
      · split at hk
        · exact nomatch hk
        · exact h.conn (hcsi.trans (congrArg some hk))
      · obtain ⟨hconn, qp', hqp', hlive⟩ := h.socket hk
        cases Option.some.inj (hqp.symm.trans hqp')
        cases Option.some.inj (hcsi.symm.trans hconn)
        simp [hlive] at hnone

/-- `post_chunks_to_rq` of a connection: it posts `r` of the `num` receives and
keeps account of the others. -/
theorem Held.postChunksToRq (h : w.Held (w.out polled)) (hsock : w.sockQps k = some q)
    (config : Config) (num : Nat) :
    Ends (w.postChunksToRq config num k)
      (fun w' => w'.Held (w'.out polled) ∧ ∃ s ib r qp qp', w.socks k = some s ∧ s.qp = some q ∧
        w' = { w with ib }.setSock k { s with postBacklog := s.postBacklog + (num - r) } ∧
        w.ib.qps q = some qp ∧ ib.qps = Function.update w.ib.qps q (some qp') ∧
        Reposted qp qp' r ∧ r ≤ num)
      Fault.Orderly := by
  unfold World.postChunksToRq
  refine ends_sock ⟨by simp, by simp⟩ fun s hs => ?_
  have hq : s.qp = some q := (sockQps_of_some hs).symm.trans hsock
  refine ends_sockQp ⟨by simp, by simp⟩ fun q' hq' => ?_
  cases Option.some.inj (hq.symm.trans hq')
  refine (h.post hs hq num fun r => s.postBacklog + (num - r)).bind ?_
  rintro ⟨r, ib⟩ ⟨hheld, qp, hqp, _, hposts⟩
  obtain ⟨qp', hqps, hreposted⟩ := hposts.queue
  refine ⟨?_, s, ib, r, qp, qp', hs, hq, rfl, hqp, hqps, hreposted, hposts.le⟩
  rwa [(resembles_setSock hs ib _).out_eq]

/-- A chunk leaves a queue that no connection uses any more. -/
theorem Balanced.eraseUnused (h : w.Balanced config) (hunused : ∀ k, w.sockQps k ≠ some q)
    {qp : QueuePair} {ib : Infiniband}
    (hqps : ib.qps = Function.update w.ib.qps q (some qp)) :
    ({ w with ib } : World).Balanced config := by
  intro k s q' qp' hs hq' hqp'
  have hne : q' ≠ q := by
    rintro rfl
    exact hunused k ((sockQps_of_some hs).trans hq')
  simp only [hqps, Function.update_of_ne hne] at hqp'
  exact h k s q' qp' hs hq' hqp'

/-- One receive is posted or put on account, and one has been completed. -/
theorem Balanced.exchange (h : w.Balanced config) (hreg : w.Registered) {r : Nat}
    {qp qp' : QueuePair} (hs : w.socks k = some s) (hq : s.qp = some q)
    (hqp : w.ib.qps q = some qp) (hreposted : Reposted qp qp' r) (hr : r ≤ 1)
    (hc : c ∈ qp'.recvQueue)
    (hsocks : w'.socks = Function.update w.socks k
      (some { s with postBacklog := s.postBacklog + (1 - r) }))
    (hqps : w'.ib.qps = Function.update w.ib.qps q
      (some { qp' with recvQueue := qp'.recvQueue.erase c })) : w'.Balanced config := by
  intro k' s' q' qp'' hs' hq' hqp''
  by_cases hk : k' = k
  · subst hk
    rw [hsocks, Function.update_self] at hs'
    cases hs'
    cases Option.some.inj (hq.symm.trans hq')
    rw [hqps, Function.update_self] at hqp''
    cases hqp''
    obtain ⟨hmax, hsum⟩ := h k' s q qp hs hq hqp
    have hlength := hreposted.length
    have herase := List.length_erase_of_mem hc
    have hpos := List.length_pos_of_mem hc
    have hkept := hreposted.maxRecvWr
    refine ⟨hkept.trans hmax, ?_⟩
    dsimp only
    omega
  · rw [hsocks, Function.update_of_ne hk] at hs'
    have hne : q' ≠ q := by
      rintro rfl
      exact hk (hreg.sockQp_inj ((sockQps_of_some hs).trans hq) ((sockQps_of_some hs').trans hq'))
    rw [hqps, Function.update_of_ne hne] at hqp''
    exact h k' s' q' qp'' hs' hq' hqp''

theorem Polling.success {response : RxWc} {rest : List RxWc}
    (h : Polling (response :: rest) (w, polled)) (hstatus : response.status = .success) :
    Ends (handleRxOne config (w, polled) response)
      (fun state => Polling rest state ∧ (w.Balanced config → state.1.Balanced config))
      Fault.Orderly := by
  obtain ⟨hheld, hnodup, hdue, hknown⟩ := h
  obtain ⟨hhead, hrest⟩ := List.nodup_cons.mp (List.map_cons ▸ hnodup)
  have hne : ∀ response' ∈ rest, response'.chunk ≠ response.chunk := fun response' hmem heq =>
    hhead (heq ▸ List.mem_map_of_mem hmem)
  have hfirst := hdue response List.mem_cons_self
  have hlater : ∀ response' ∈ rest, w.Due response' := fun response' hmem =>
    hdue response' (List.mem_cons_of_mem _ hmem)
  unfold handleRxOne
  dsimp only
  obtain ⟨conn, hrun, hconn, hunused⟩ := hheld.registered.getConnLockless response.qpNum
  rw [hrun, hstatus]
  cases conn with
  | none =>
      obtain ⟨ib, qp, hrecall, hheld', hqp, hqps⟩ := hheld.recallDue hfirst
      change Ends (w.recallChunkToPool response.chunk >>= _) _ _
      rw [hrecall]
      refine ⟨⟨hheld', hrest, fun response' hmem =>
        (hlater response' hmem).erase hqp (hne response' hmem) hqps, hknown⟩, fun hbalanced => ?_⟩
      exact hbalanced.eraseUnused (hunused rfl) hqps
  | some k =>
      obtain ⟨hsock, hgetQp⟩ := hconn k rfl
      rw [hgetQp]
      refine (hheld.postChunksToRq hsock config 1).bind ?_
      rintro w₁ ⟨hheld₁, s, ib, r, qp, qp', hs, hq, hw₁, hqp, hqps, hreposted, hr⟩
      have hqps₁ : w₁.ib.qps = Function.update w.ib.qps response.qpNum (some qp') := hw₁ ▸ hqps
      have hdue₁ : ∀ response', w.Due response' → w₁.Due response' :=
        fun response' hd => hd.post hqp hreposted hqps₁
      obtain ⟨ib', qp₁, hremove, hqp₁, hqps', hheld'⟩ := hheld₁.passOn (hdue₁ response hfirst) k
      change Ends (_ >>= _) _ _
      rw [hremove]
      refine ⟨⟨hheld', hrest, fun response' hmem =>
        (hdue₁ response' (hlater response' hmem)).erase hqp₁ (hne response' hmem) hqps', ?_⟩, ?_⟩
      · intro k' hpolled
        by_cases hk : k' = k
        · subst hk
          exact ⟨{ s with postBacklog := s.postBacklog + (1 - r) }, by simp [hw₁]⟩
        · obtain ⟨s', hs'⟩ := hknown k' (by simpa [Function.update_of_ne hk] using hpolled)
          exact ⟨s', by simpa [hw₁, hk] using hs'⟩
      · intro hbalanced
        rw [hqps₁, Function.update_self] at hqp₁
        cases hqp₁
        have hin : response.chunk ∈ qp'.recvQueue := by
          obtain ⟨qp₀, hqp₀, hin, _⟩ := hfirst
          cases Option.some.inj (hqp.symm.trans hqp₀)
          exact hreposted.keeps _ hin
        have hsocks : w₁.socks = Function.update w.socks k
            (some { s with postBacklog := s.postBacklog + (1 - r) }) := by
          rw [hw₁]
          rfl
        refine hbalanced.exchange hheld.registered hs hq hqp hreposted hr hin hsocks ?_
        exact hqps'.trans (by rw [hqps₁, Function.update_idem])

theorem Polling.failure {response : RxWc} {rest : List RxWc}
    (h : Polling (response :: rest) (w, polled)) (hstatus : response.status ≠ .success) :
    Ends (handleRxOne config (w, polled) response) (fun _ => False) Fault.Orderly := by
  obtain ⟨ib, _, hrecall, _⟩ := h.held.recallDue (h.due response List.mem_cons_self)
  obtain ⟨conn, hrun, _⟩ := h.held.registered.getConnLockless response.qpNum
  simp only at hrecall hrun
  unfold handleRxOne
  dsimp only
  rw [hrun]
  cases hcase : response.status with
  | success => exact absurd hcase hstatus
  | wrFlushErr =>
      change Ends (w.recallChunkToPool response.chunk >>= _) _ _
      rw [hrecall]
      exact ⟨by simp, by simp⟩
  | otherErr =>
      change Ends (w.recallChunkToPool response.chunk >>= _) _ _
      rw [hrecall]
      exact ⟨by simp, by simp⟩

theorem Polling.one {response : RxWc} {rest : List RxWc} {state : World × (Nat → List RxWc)}
    (h : Polling (response :: rest) state) (config : Config) :
    Ends (handleRxOne config state response)
      (fun state' => Polling rest state' ∧ (state.1.Balanced config → state'.1.Balanced config))
      Fault.Orderly := by
  by_cases hstatus : response.status = .success
  · exact Polling.success h hstatus
  · exact (Polling.failure h hstatus).mono (fun _ hfalse => hfalse.elim) fun _ hf => hf

theorem out_passWc_wc (hknown : ∀ k, polled k ≠ [] → ∃ s, w.socks k = some s) (k : Nat) :
    (w.passWc polled).out noPolled (.wc k) =
      w.out polled (.wc k) ++ w.out polled (.polled k) := by
  cases hs : w.socks k with
  | none =>
      have hempty : polled k = [] := by
        by_contra hne
        obtain ⟨s, hs'⟩ := hknown k hne
        exact nomatch hs.symm.trans hs'
      simp [World.passWc, World.out, hs, hempty]
  | some s => simp [World.passWc, World.out, hs]

theorem out_passWc_buffers (w : World) (polled : Nat → List RxWc) (k : Nat) :
    (w.passWc polled).out noPolled (.buffers k) = w.out polled (.buffers k) := by
  cases hs : w.socks k <;> simp [World.passWc, World.out, hs]

theorem sockQps_passWc (w : World) (polled : Nat → List RxWc) :
    (w.passWc polled).sockQps = w.sockQps := by
  funext k
  cases hs : w.socks k <;> simp [sockQps, World.passWc, hs]

/-- A chunk is where it was, unless it was in the hands of the batch. -/
theorem mem_place_passWc (hknown : ∀ k, polled k ≠ [] → ∃ s, w.socks k = some s)
    (p : Place Slot) (c : Nat) : c ∈ w.ib.place ((w.passWc polled).out noPolled) p ↔
      ∃ p₀ : Place Slot, p₀.afterPass = p ∧ c ∈ w.ib.place (w.out polled) p₀ := by
  constructor
  · intro hc
    rcases p with _ | q | k | k | k
    · exact ⟨.free, rfl, hc⟩
    · exact ⟨.rq q, rfl, hc⟩
    · rw [Infiniband.place, out_passWc_wc hknown] at hc
      rcases List.mem_append.mp hc with hc | hc
      · exact ⟨.out (.wc k), rfl, hc⟩
      · exact ⟨.out (.polled k), rfl, hc⟩
    · rw [Infiniband.place, out_passWc_buffers] at hc
      exact ⟨.out (.buffers k), rfl, hc⟩
    · exact absurd hc List.not_mem_nil
  · rintro ⟨p₀, rfl, hc⟩
    rcases p₀ with _ | q | k | k | k
    · exact hc
    · exact hc
    · change c ∈ (w.passWc polled).out noPolled (.wc k)
      rw [out_passWc_wc hknown]
      exact List.mem_append_left _ hc
    · change c ∈ (w.passWc polled).out noPolled (.buffers k)
      rw [out_passWc_buffers]
      exact hc
    · change c ∈ (w.passWc polled).out noPolled (.wc k)
      rw [out_passWc_wc hknown]
      exact List.mem_append_right _ hc

/-- At the end of a batch each connection is passed what was collected for it. -/
theorem Held.passWc (h : w.Held (w.out polled))
    (hknown : ∀ k, polled k ≠ [] → ∃ s, w.socks k = some s) :
    (w.passWc polled).Held ((w.passWc polled).out noPolled) := by
  refine ⟨⟨h.placed.exclusive.merge Place.afterPass (mem_place_passWc hknown) ?_, ?_⟩, ?_⟩
  · intro p
    rcases p with _ | q | k | k | k
    · exact h.placed.exclusive.nodup .free
    · exact h.placed.exclusive.nodup (.rq q)
    · rw [Infiniband.place, out_passWc_wc hknown]
      refine List.nodup_append.mpr ⟨h.placed.exclusive.nodup (.out (.wc k)),
        h.placed.exclusive.nodup (.out (.polled k)), ?_⟩
      rintro c hc _ hc' rfl
      cases h.placed.exclusive.apart (p := .out (.wc k)) (q := .out (.polled k)) hc hc'
    · rw [Infiniband.place, out_passWc_buffers]
      exact h.placed.exclusive.nodup (.out (.buffers k))
    · exact List.nodup_nil
  · intro p c hc
    obtain ⟨p₀, rfl, hp₀⟩ := (mem_place_passWc hknown p c).mp hc
    exact (h.placed.qpField hp₀).trans p₀.afterPass_qp.symm
  · unfold Registered
    rw [sockQps_passWc]
    exact h.registered

theorem keeps_passWc (w : World) (polled : Nat → List RxWc) : w.Keeps (w.passWc polled) := by
  refine ⟨fun hs' => ?_, fun hqp => ⟨_, hqp, rfl, rfl⟩⟩
  obtain ⟨s, hs, rfl⟩ := Option.map_eq_some_iff.mp hs'
  exact ⟨s, hs, rfl, rfl⟩

theorem keeps_completeRx (w : World) (cqe : List RxWc) : w.Keeps (w.completeRx cqe) := by
  refine ⟨fun hs => ⟨_, hs, rfl, rfl⟩, fun hqp' => ?_⟩
  obtain ⟨qp, hqp, rfl⟩ := Option.map_eq_some_iff.mp hqp'
  exact ⟨qp, hqp, rfl, rfl⟩

theorem keeps_completeTx (w : World) (cqe : List TxWc) : w.Keeps (w.completeTx cqe) := by
  refine ⟨fun hs => ⟨_, hs, rfl, rfl⟩, fun hqp' => ?_⟩
  obtain ⟨qp, hqp, rfl⟩ := Option.map_eq_some_iff.mp hqp'
  exact ⟨qp, hqp, rfl, rfl⟩

theorem placed_completeRx {out : Slot → List Nat} (h : w.ib.Placed out) (cqe : List RxWc) :
    (w.completeRx cqe).ib.Placed out := by
  refine h.congr rfl rfl (fun q => ?_) (fun _ => .refl _) fun _ => rfl
  simp [World.completeRx, Infiniband.recvQueue, Function.comp_def]

theorem Held.completeRx (h : w.Held (w.out noPolled)) (cqe : List RxWc) :
    (w.completeRx cqe).Held ((w.completeRx cqe).out noPolled) := by
  constructor
  · exact placed_completeRx h.placed cqe
  · refine h.registered.mapQps _ (fun _ _ => rfl) fun q qp hwf => ⟨⟨?_, ?_⟩, hwf.beacon⟩
    · exact hwf.sound.1.filter _
    · exact fun c hc => hwf.sound.2 c (List.mem_of_mem_filter hc)

theorem due_completeRx (h : w.Registered) {cqe : List RxWc} {response : RxWc}
    (hmem : response ∈ cqe)
    (hposted : ∃ qp, w.ib.qps response.qpNum = some qp ∧ response.chunk ∈ qp.posted) :
    (w.completeRx cqe).Due response := by
  obtain ⟨qp, hqp, hin⟩ := hposted
  refine ⟨{ qp with posted := qp.posted.filter fun c =>
      (response.qpNum, c) ∉ cqe.map fun r => (r.qpNum, r.chunk) }, ?_,
    (h.wf hqp).sound.2 _ hin, ?_⟩
  · simp only [World.completeRx, hqp, Option.map_some]
  intro hleft
  have hnot := (List.mem_filter.mp hleft).2
  simp only [decide_eq_true_eq] at hnot
  exact hnot (List.mem_map_of_mem (f := fun r : RxWc => (r.qpNum, r.chunk)) hmem)

theorem Held.handleRxEvent (h : w.Held (w.out noPolled)) (config : Config) (cqe : List RxWc)
    (henabled : w.Enabled (.handleRxEvent cqe)) :
    Ends ((w.completeRx cqe).handleRxEvent config cqe)
      (fun w' => w'.Held (w'.out noPolled) ∧ (w.Balanced config → w'.Balanced config))
      Fault.Orderly := by
  obtain ⟨hnodup, hposted⟩ := henabled
  unfold World.handleRxEvent
  refine Ends.bind (Ends.foldlM (fun rest state => Polling rest state ∧
    (w.Balanced config → state.1.Balanced config)) ?_ cqe _
    ⟨⟨h.completeRx cqe, hnodup, fun response hmem =>
      due_completeRx h.registered hmem (hposted response hmem), fun _ hne => absurd rfl hne⟩,
      fun hbalanced => hbalanced.of_keeps (keeps_completeRx w cqe)⟩) ?_
  · rintro response rest state ⟨hpolling, hbalanced⟩
    refine (hpolling.one config).mono ?_ fun _ hf => hf
    exact fun state' hstate' => ⟨hstate'.1, fun hw => hstate'.2 (hbalanced hw)⟩
  · rintro ⟨w', polled⟩ ⟨hpolling, hbalanced⟩
    exact ⟨hpolling.held.passWc hpolling.known, fun hw =>
      (hbalanced hw).of_keeps (keeps_passWc w' polled)⟩

/-- The state of `handle_tx_event` with some of the batch still to come: a beacon
comes from a queue pair marked dead. -/
structure Sending (rest : List TxWc) (state : World × List Nat) : Prop where
  held : state.1.Held (state.1.out noPolled)
  dead : ∀ response ∈ rest, response.wr = .beacon →
    ∃ qp, state.1.ib.qps response.qpNum = some qp ∧ qp.dead = true

theorem Registered.enqueueDeadQp (h : w.Registered) {qp : QueuePair} (hqp : w.ib.qps q = some qp)
    (hdead : qp.dead = true) : (w.enqueueDeadQp q).Registered := by
  unfold World.enqueueDeadQp
  split
  · rename_i hsome
    obtain ⟨csi, hcsi⟩ := Option.isSome_iff_exists.mp hsome
    cases csi with
    | none => exact Registry.enqueue h hcsi
    | some k =>
        obtain ⟨_, qp', hqp', hlive⟩ := h.socket (h.conn hcsi)
        cases Option.some.inj (hqp.symm.trans hqp')
        exact nomatch hdead.symm.trans hlive
  · exact h

theorem enqueueDeadQp_ib (w : World) (q : Nat) : (w.enqueueDeadQp q).ib = w.ib := by
  unfold World.enqueueDeadQp
  split <;> rfl

theorem enqueueDeadQp_socks (w : World) (q : Nat) : (w.enqueueDeadQp q).socks = w.socks := by
  unfold World.enqueueDeadQp
  split <;> rfl

theorem Sending.one {response : TxWc} {rest : List TxWc} {state : World × List Nat}
    (h : Sending (response :: rest) state) :
    Ends (handleTxOne state response)
      (fun state' => Sending rest state' ∧ state.1.Keeps state'.1) Fault.Orderly := by
  obtain ⟨w, txChunks⟩ := state
  obtain ⟨hheld, hdead⟩ := h
  have hrest : ∀ response ∈ rest, response.wr = .beacon → ∃ qp, w.ib.qps response.qpNum = some qp ∧
      qp.dead = true := fun response hmem => hdead response (List.mem_cons_of_mem _ hmem)
  unfold handleTxOne
  dsimp only
  cases hwr : response.wr with
  | beacon =>
      obtain ⟨qp, hqp, hmark⟩ := hdead response List.mem_cons_self hwr
      refine ⟨⟨⟨?_, hheld.registered.enqueueDeadQp hqp hmark⟩, ?_⟩, ?_⟩
      · rw [out_congr (enqueueDeadQp_socks w _), enqueueDeadQp_ib]
        exact hheld.placed
      · rw [enqueueDeadQp_ib]
        exact hrest
      · exact ⟨fun hs => ⟨_, enqueueDeadQp_socks w _ ▸ hs, rfl, rfl⟩,
          fun hqp => ⟨_, enqueueDeadQp_ib w _ ▸ hqp, rfl, rfl⟩⟩
  | send wr =>
      have hkeeps : ∀ callbacks, w.Keeps { w with callbacks } := fun _ =>
        ⟨fun hs => ⟨_, hs, rfl, rfl⟩, fun hqp => ⟨_, hqp, rfl, rfl⟩⟩
      dsimp only
      split
      · exact ⟨by simp, by simp⟩
      · obtain ⟨conn, hrun, _⟩ := hheld.registered.getConnLockless response.qpNum
        rw [hrun]
        cases conn with
        | none => exact ⟨by simp, by simp⟩
        | some k =>
            refine ends_sock ⟨by simp, by simp⟩ fun s hs => ?_
            split
            · exact ⟨by simp, by simp⟩
            · cases wr with
              | chunk index =>
                  dsimp only
                  split
                  · exact ⟨⟨⟨hheld.placed, hheld.registered⟩, hrest⟩, hkeeps _⟩
                  · exact ⟨by simp, by simp⟩
              | fin q =>
                  dsimp only
                  split
                  · exact ⟨⟨⟨hheld.placed, hheld.registered⟩, hrest⟩, hkeeps _⟩
                  · exact ⟨by simp, by simp⟩

theorem placed_completeTx {out : Slot → List Nat} (h : w.ib.Placed out) (cqe : List TxWc) :
    (w.completeTx cqe).ib.Placed out := by
  refine h.congr rfl rfl (fun q => ?_) (fun _ => .refl _) fun _ => rfl
  simp [World.completeTx, Infiniband.recvQueue, Function.comp_def]

theorem registry_completeTx {sockQp : Nat → Option Nat} {conns : Nat → Option (Option Nat)}
    {dead : List Nat} (h : Registry w.ib.qps sockQp conns dead) (cqe : List TxWc) :
    Registry (w.completeTx cqe).ib.qps sockQp conns dead := by
  refine h.mapQps _ (fun _ _ => rfl) fun q qp hwf => ⟨hwf.sound, ?_⟩
  exact fun hbeacon => hwf.beacon (List.mem_of_mem_drop hbeacon)

theorem Held.completeTx (h : w.Held (w.out noPolled)) (cqe : List TxWc) :
    (w.completeTx cqe).Held ((w.completeTx cqe).out noPolled) :=
  ⟨placed_completeTx h.placed cqe, registry_completeTx h.registered cqe⟩

theorem Held.handleTxEvent (h : w.Held (w.out noPolled)) (cqe : List TxWc)
    (henabled : w.Enabled (.handleTxEvent cqe)) :
    Ends ((w.completeTx cqe).handleTxEvent cqe)
      (fun w' => w'.Held (w'.out noPolled) ∧ w.Keeps w') Fault.Orderly := by
  unfold World.handleTxEvent
  refine Ends.bind (Ends.foldlM (fun rest state => Sending rest state ∧ w.Keeps state.1) ?_ cqe _
    ⟨⟨h.completeTx cqe, ?_⟩, keeps_completeTx w cqe⟩) ?_
  · rintro response rest state ⟨hsending, hkeeps⟩
    refine hsending.one.mono ?_ fun _ hf => hf
    exact fun state' hstate' => ⟨hstate'.1, hkeeps.trans hstate'.2⟩
  · intro response hmem hbeacon
    obtain ⟨qp, hqp, hprefix⟩ := henabled response hmem
    have hposted : TxWr.beacon ∈ qp.sends :=
      hprefix.subset (List.mem_map.mpr ⟨response, List.mem_filter.mpr ⟨hmem, by simp⟩, hbeacon⟩)
    refine ⟨{ qp with sends := qp.sends.drop (cqe.countP (·.qpNum = response.qpNum)) }, ?_,
      (h.registered.wf hqp).beacon hposted⟩
    simp only [World.completeTx, hqp, Option.map_some]
  · rintro ⟨w', txChunks⟩ ⟨hsending, hkeeps⟩
    change Held (w'.postTxBuffer txChunks) ((w'.postTxBuffer txChunks).out noPolled) ∧
      w.Keeps (w'.postTxBuffer txChunks)
    unfold postTxBuffer
    split
    · exact ⟨hsending.held, hkeeps⟩
    · exact ⟨⟨hsending.held.placed, hsending.held.registered⟩, hkeeps.socks, hkeeps.qps⟩

end World

end RdmaCapsule.Core
