import RdmaCapsule.Core.Holding

/-! The life of a connection and its queue pair: the constructor, the destructor
and the deletion of dead queue pairs when polling is idle. -/
namespace RdmaCapsule.Core

open RdmaCapsule.Foundation

namespace World

variable {w w' : World} {out : Slot → List Nat} {polled : Nat → List RxWc} {k q c : Nat}
  {s s' : Socket} {config : Config}

/-- A number that no queue pair has gets an empty one. -/
private theorem placed_newQp (h : w.ib.Placed out) (hq : w.ib.qps q = none) (qp : QueuePair)
    (hempty : qp.recvQueue = []) :
    ({ w.ib with qps := Function.update w.ib.qps q (some qp) } : Infiniband).Placed out := by
  refine h.congr rfl rfl (fun q' => ?_) (fun _ => .refl _) fun _ => rfl
  by_cases hqq : q' = q
  · subst hqq
    simp [Infiniband.recvQueue, hq, hempty]
  · simp [Infiniband.recvQueue, Function.update_of_ne hqq]

theorem out_setSock_new (hk : w.socks k = none) (s : Socket) (hwc : s.wc = [])
    (hbuffers : s.buffers = []) : (w.setSock k s).out polled = w.out polled := by
  have hwc' : w.out polled (.wc k) = [] := by simp [World.out, hk]
  have hbuffers' : w.out polled (.buffers k) = [] := by simp [World.out, hk]
  rw [out_setSock, hwc, hbuffers, List.map_nil, ← hwc', Function.update_eq_self, hwc',
    ← hbuffers', Function.update_eq_self]

/-- A connection without a queue pair has nothing to keep account of. -/
theorem Balanced.setSockNoQp (h : w.Balanced config) {ib : Infiniband}
    (hqps : ib.qps = w.ib.qps) (hqp : s.qp = none) :
    ({ w with ib }.setSock k s).Balanced config := by
  intro k' s' q' qp' hs' hq' hqp'
  by_cases hk : k' = k
  · subst hk
    rw [setSock_socks, Function.update_self] at hs'
    cases hs'
    exact nomatch hqp.symm.trans hq'
  · rw [setSock_socks, Function.update_of_ne hk] at hs'
    exact h k' s' q' qp' hs' hq' (hqps ▸ hqp')

/-- A new connection whose queue pair is filled. -/
theorem Balanced.register (h : w.Balanced config) (hreg : w.Registered) (hq : w.ib.qps q = none)
    {ib : Infiniband} {qp : QueuePair} (hqps : ib.qps = Function.update w.ib.qps q (some qp))
    {w₁ : World} (hib : w₁.ib = ib) (hsocks : w₁.socks = Function.update w.socks k (some s))
    (hs : s.qp = some q) (hnew : qp.maxRecvWr = config.rxQueueLen ∧
      qp.recvQueue.length + s.postBacklog = qp.maxRecvWr) : w₁.Balanced config := by
  intro k' s' q' qp' hs' hq' hqp'
  rw [hib, hqps] at hqp'
  by_cases hk : k' = k
  · subst hk
    rw [hsocks, Function.update_self] at hs'
    cases hs'
    cases hs.symm.trans hq'
    rw [Function.update_self] at hqp'
    cases hqp'
    exact hnew
  · rw [hsocks, Function.update_of_ne hk] at hs'
    have hne : q' ≠ q := by
      rintro rfl
      obtain ⟨_, qp₀, hqp₀, _⟩ := hreg.socket ((sockQps_of_some hs').trans hq')
      exact nomatch hq.symm.trans hqp₀
    rw [Function.update_of_ne hne] at hqp'
    exact h k' s' q' qp' hs' hq' hqp'

theorem Held.setSockNoQp (h : w.Held (w.out noPolled)) (hk : w.socks k = none) {ib : Infiniband}
    (hplaced : ib.Placed (w.out noPolled)) (hqps : ib.qps = w.ib.qps) (hqp : s.qp = none)
    (hwc : s.wc = []) (hbuffers : s.buffers = []) :
    ({ w with ib }.setSock k s).Held (({ w with ib }.setSock k s).out noPolled) := by
  have hout : ({ w with ib }.setSock k s).out noPolled = w.out noPolled :=
    out_setSock_new hk s hwc hbuffers
  have hsocks : ({ w with ib }.setSock k s).sockQps = w.sockQps := by
    have hsock : w.sockQps k = none := by simp [sockQps, hk]
    rw [sockQps_setSock, hqp]
    change Function.update w.sockQps k none = w.sockQps
    rw [← hsock, Function.update_eq_self]
  refine ⟨hout ▸ hplaced, ?_⟩
  have hreg := h.registered
  unfold Registered at hreg ⊢
  rw [hsocks]
  exact hqps.symm ▸ hreg

theorem Held.register (h : w.Held (w.out noPolled)) (hk : w.socks k = none)
    (hq : w.ib.qps q = none) (hpos : 0 < q) {ib : Infiniband} {qp : QueuePair}
    (hplaced : ib.Placed (w.out noPolled)) (hqps : ib.qps = Function.update w.ib.qps q (some qp))
    (hlive : qp.dead = false) (hwf : qp.WF) (hqp : s.qp = some q) (hwc : s.wc = [])
    (hbuffers : s.buffers = []) :
    Ends (({ w with ib }.setSock k s).registerQp q k) (fun w' => w'.Held (w'.out noPolled) ∧
      w'.ib = ib ∧ w'.socks = Function.update w.socks k (some s)) Fault.Orderly := by
  have hout : ({ w with ib }.setSock k s).out noPolled = w.out noPolled :=
    out_setSock_new hk s hwc hbuffers
  have hsock : w.sockQps k = none := by simp [sockQps, hk]
  have hreg := h.registered.register hq hpos hsock hlive hwf
  rw [← hqps, ← hqp] at hreg
  unfold registerQp
  split
  · exact ⟨by simp, by simp⟩
  · refine ⟨⟨hout ▸ hplaced, ?_⟩, rfl, rfl⟩
    unfold Registered
    exact sockQps_setSock { w with ib } k s ▸ hreg

theorem Held.create (h : w.Held (w.out noPolled)) (config : Config) (isServer : Bool)
    (answer : InitAnswer) (hk : w.socks k = none) (hq : w.ib.qps q = none) (hpos : 0 < q) :
    Ends (w.create config k q isServer answer)
      (fun w' => w'.Held (w'.out noPolled) ∧
        ((∀ bad, config.postRecv w.ib.posts = some bad → config.rxQueueLen ≤ bad + 1) →
          w.Balanced config → w'.Balanced config)) Fault.Orderly := by
  cases answer with
  | notCreated => exact ⟨by simp, by simp⟩
  | notInit => exact ⟨by simp, by simp⟩
  | created =>
      have hplaced := placed_newQp h.placed hq ⟨config.rxQueueLen, [], false, [], []⟩ rfl
      unfold World.create
      refine Ends.bind ((hplaced.postChunksToRq (Function.update_self ..) _).mono
        (fun _ hposts => hposts) ?_) ?_
      · rintro fault (rfl | rfl) <;> exact ⟨by simp, by simp⟩
      rintro ⟨rqWrs, ib⟩ hposts
      obtain ⟨qp', hqps', hreposted⟩ := hposts.queue
      have hqp' : ib.qps q = some qp' := by rw [hqps', Function.update_self]
      have hqps : ib.qps = Function.update w.ib.qps q (some qp') := by
        rw [hqps', Function.update_idem]
      have hwf : qp'.WF := hreposted.wf ⟨⟨List.nodup_nil, by simp⟩, by simp⟩
      dsimp only
      split
      · obtain ⟨ib', hrun, hplaced', hdeleted⟩ := Infiniband.Placed.deleteQp hposts.placed hqp'
        rw [hrun]
        have hsame : ib'.qps = w.ib.qps := by
          rw [hdeleted, hqps, Function.update_idem, ← hq, Function.update_eq_self]
        exact ⟨h.setSockNoQp hk hplaced' hsame rfl rfl rfl,
          fun _ hbalanced => hbalanced.setSockNoQp hsame rfl⟩
      · rename_i hsome
        refine (h.register hk hq hpos hposts.placed hqps (hreposted.dead.trans rfl) hwf rfl rfl
          rfl).mono ?_ fun _ => id
        rintro w' ⟨hheld, hib, hsocks⟩
        refine ⟨hheld, fun hwhole hbalanced => ?_⟩
        have hfull : rqWrs = config.rxQueueLen := (hposts.whole hwhole).resolve_left hsome
        refine hbalanced.register h.registered hq hqps hib hsocks rfl ⟨hreposted.maxRecvWr, ?_⟩
        simp [hreposted.length, hfull, hreposted.maxRecvWr]

/-- What the destructor of a connection does to the queue pair. -/
theorem Held.scheduleQpDestroy (h : w.Held out) (hs : w.socks k = some s) (switched : Bool) :
    ∃ w', w.scheduleQpDestroy switched (s.qp.getD 0) = .ok w' ∧ w'.socks = w.socks ∧
      w.Keeps w' ∧ w'.ib.Placed out ∧
        Registry w'.ib.qps (Function.update w'.sockQps k none) w'.qpConns
        w'.deadQueuePairs := by
  have hsock := sockQps_of_some hs
  unfold World.scheduleQpDestroy
  cases hq : s.qp with
  | none =>
      have hzero : w.qpConns 0 = none := by
        cases hcsi : w.qpConns 0 with
        | none => rfl
        | some csi => exact absurd (h.registered.known hcsi).1 (Nat.lt_irrefl 0)
      refine ⟨w, by simp [hzero], rfl, .refl w, h.placed, ?_⟩
      rw [← hq, ← hsock, Function.update_eq_self]
      exact h.registered
  | some q =>
      obtain ⟨hconn, qp, hqp, hlive⟩ := h.registered.socket (hsock.trans hq)
      have hwf := h.registered.wf hqp
      simp only [Option.getD_some, hconn, Option.isNone_some, Bool.false_eq_true, if_false, hqp,
        toDead, hlive]
      cases switched with
      | true =>
          refine ⟨_, rfl, rfl, ?_, ?_, ?_⟩
          · exact keeps_modifyQp (fun hs => ⟨_, hs, rfl, rfl⟩) rfl fun _ => ⟨rfl, rfl⟩
          · refine h.placed.congr rfl rfl (fun q' => ?_) (fun _ => .refl _) fun _ => rfl
            by_cases hqq : q' = q
            · subst hqq
              simp [Infiniband.recvQueue, hqp]
            · simp [Infiniband.recvQueue, Function.update_of_ne hqq]
          · have hreg := h.registered.forget (hsock.trans hq)
              { qp with sends := qp.sends ++ [.beacon], dead := true } ⟨hwf.sound, fun _ => rfl⟩
            rw [Infiniband.modifyQp_qps, hqp]
            exact hreg
      | false =>
          refine ⟨_, rfl, rfl, keeps_of_eq rfl rfl, h.placed, ?_⟩
          have hreg := (h.registered.forget (hsock.trans hq) qp hwf).enqueue
            (Function.update_self ..)
          rw [← hqp, Function.update_eq_self, Function.update_idem] at hreg
          exact hreg

/-- The two loops of the destructor. -/
theorem recallAll (o : Slot) (l : List Nat) (w : World)
    (h : w.ib.Placed (Function.update out o l)) :
    ∃ ib, l.foldlM recallChunkToPool w = .ok { w with ib } ∧
      ib.Placed (Function.update out o []) ∧ ib.qps = w.ib.qps := by
  induction l generalizing w with
  | nil => exact ⟨w.ib, rfl, h, rfl⟩
  | cons c rest ih =>
      have hout : (Function.update out o (c :: rest) o).Perm
          (c :: Function.update out o rest o) := .of_eq (by simp)
      obtain ⟨ib, hrun, hplaced, hqps, _⟩ := h.recall o hout fun o' hne => by simp [hne]
      obtain ⟨ib', hrun', hplaced', hqps'⟩ := ih { w with ib } hplaced
      refine ⟨ib', ?_, hplaced', hqps'.trans hqps⟩
      rw [List.foldlM_cons, recallChunkToPool, hrun]
      exact hrun'

theorem out_removeSock (w : World) (k : Nat) (polled : Nat → List RxWc) :
    ({ w with socks := Function.update w.socks k none } : World).out polled =
      Function.update (Function.update (w.out polled) (.wc k) []) (.buffers k) [] := by
  funext slot
  rcases slot with k' | k' | k'
  · by_cases hk : k' = k <;> simp [World.out, hk]
  · by_cases hk : k' = k <;> simp [World.out, hk]
  · rfl

theorem keeps_removeSock {ib : Infiniband} (hqps : ib.qps = w.ib.qps) (k : Nat) :
    w.Keeps { w with ib, socks := Function.update w.socks k none } := by
  refine ⟨fun {k' s'} hs' => ?_, (keeps_setIb hqps).qps⟩
  have hk : k' ≠ k := by
    rintro rfl
    simp at hs'
  exact ⟨s', by simpa [hk] using hs', rfl, rfl⟩

theorem keeps_deleteQp (hsocks : w'.socks = w.socks)
    (hqps : w'.ib.qps = Function.update w.ib.qps q none) : w.Keeps w' := by
  refine ⟨fun hs => ⟨_, hsocks ▸ hs, rfl, rfl⟩, fun {q' qp'} hqp' => ?_⟩
  rw [hqps] at hqp'
  have hq : q' ≠ q := by
    rintro rfl
    simp at hqp'
  exact ⟨qp', by simpa [hq] using hqp', rfl, rfl⟩

theorem Held.destroy (h : w.Held (w.out noPolled)) (switched : Bool) (k : Nat) :
    Ends (w.destroy switched k) (fun w' => w'.Held (w'.out noPolled) ∧ w.Keeps w')
      Fault.Orderly := by
  unfold World.destroy
  refine ends_sock ⟨by simp, by simp⟩ fun s hs => ?_
  obtain ⟨w₁, hrun₁, hsocks, hkeeps₁, hplaced₁, hreg⟩ := h.scheduleQpDestroy hs switched
  have hwc : Function.update (w.out noPolled) (.wc k) (s.wc.map (·.chunk)) = w.out noPolled := by
    rw [Function.update_eq_self_iff, out_wc hs]
  obtain ⟨ib₂, hrun₂, hplaced₂, hqps₂⟩ := recallAll (.wc k) _ w₁ (hwc.symm ▸ hplaced₁)
  have hbuffers : Function.update (Function.update (w.out noPolled) (.wc k) []) (.buffers k)
      s.buffers = Function.update (w.out noPolled) (.wc k) [] := by
    rw [Function.update_eq_self_iff, Function.update_of_ne (by simp), out_buffers hs]
  obtain ⟨ib₃, hrun₃, hplaced₃, hqps₃⟩ :=
    recallAll (.buffers k) s.buffers { w₁ with ib := ib₂ } (hbuffers.symm ▸ hplaced₂)
  rw [hrun₁]
  change Ends ((s.wc.map (·.chunk)).foldlM recallChunkToPool w₁ >>= _) _ _
  rw [hrun₂]
  change Ends (s.buffers.foldlM recallChunkToPool { w₁ with ib := ib₂ } >>= _) _ _
  rw [hrun₃]
  have hqps : ib₃.qps = w₁.ib.qps := hqps₃.trans hqps₂
  refine ⟨⟨?_, ?_⟩, hkeeps₁.trans (keeps_removeSock hqps k)⟩
  · have hout := out_removeSock { w₁ with ib := ib₃ } k noPolled
    have hsame : ({ w₁ with ib := ib₃ } : World).out noPolled = w.out noPolled :=
      out_congr (by exact hsocks) noPolled
    rw [hsame] at hout
    exact hout ▸ hplaced₃
  · have hsockQps : ({ w₁ with ib := ib₃, socks := Function.update w₁.socks k none } :
        World).sockQps = Function.update w₁.sockQps k none := by
      funext k'
      by_cases hk : k' = k <;> simp [sockQps, hk]
    unfold Registered
    rw [hsockQps]
    exact hqps ▸ hreg

/-- The loop that deletes the dead queue pairs, wherever the chunks are that it
does not concern. -/
theorem deleteAll {sockQp : Nat → Option Nat} (dead : List Nat) (w : World)
    (hplaced : w.ib.Placed out) (hreg : Registry w.ib.qps sockQp w.qpConns dead) :
    ∃ ib, dead.foldlM deleteDead w = .ok { w with ib, deleted := w.deleted ++ dead } ∧
      ib.Placed out ∧ Registry ib.qps sockQp w.qpConns [] ∧ w.Keeps { w with ib } := by
  induction dead generalizing w with
  | nil => exact ⟨w.ib, by simp; rfl, hplaced, hreg, .refl w⟩
  | cons q rest ih =>
      obtain ⟨_, qp, hqp⟩ := hreg.retired List.mem_cons_self
      obtain ⟨ib, hrun, hplaced', hqps⟩ := hplaced.deleteQp hqp
      obtain ⟨ib', hrun', hplaced'', hreg', hkeeps⟩ :=
        ih { w with ib, deleted := w.deleted ++ [q] } hplaced' (hqps ▸ hreg.delete)
      have hfirst : w.Keeps { w with ib, deleted := w.deleted ++ [q] } := keeps_deleteQp rfl hqps
      refine ⟨ib', ?_, hplaced'', hreg', ⟨(hfirst.trans hkeeps).socks, (hfirst.trans hkeeps).qps⟩⟩
      rw [List.foldlM_cons]
      unfold deleteDead at hrun' ⊢
      rw [hrun]
      refine hrun'.trans ?_
      simp

theorem idle_eq {sockQp : Nat → Option Nat} (hplaced : w.ib.Placed out)
    (hreg : Registry w.ib.qps sockQp w.qpConns w.deadQueuePairs) :
    ∃ ib, w.idle = .ok { w with
        ib, deadQueuePairs := [], deleted := w.deleted ++ w.deadQueuePairs } ∧
      ib.Placed out ∧ Registry ib.qps sockQp w.qpConns [] ∧ w.Keeps { w with ib } := by
  obtain ⟨ib, hrun, hplaced', hreg', hkeeps⟩ :=
    deleteAll w.deadQueuePairs { w with deadQueuePairs := [] } hplaced hreg
  exact ⟨ib, hrun, hplaced', hreg', hkeeps.socks, hkeeps.qps⟩

theorem Held.idle (h : w.Held (w.out noPolled)) :
    Ends w.idle (fun w' => w'.Held (w'.out noPolled) ∧ w.Keeps w') Fault.Orderly := by
  obtain ⟨ib, hrun, hplaced, hreg, hkeeps⟩ := idle_eq h.placed h.registered
  rw [hrun]
  exact ⟨⟨hplaced, hreg⟩, hkeeps.socks, hkeeps.qps⟩

end World

end RdmaCapsule.Core
