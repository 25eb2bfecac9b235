import RdmaCapsule.Core.ChunkPlaces
import RdmaCapsule.Core.Dispatcher

/-! Which queue pairs exist and who refers to them: the connections, the map
`qp_conns` of the dispatcher and its list of dead queue pairs. The relation is
stated over these four components alone, so that an operation which leaves them
alone has nothing to prove. -/
namespace RdmaCapsule.Core

open RdmaCapsule.Foundation

structure QueuePair.WF (qp : QueuePair) : Prop where
  sound : qp.Sound
  /-- A beacon is posted only when the queue pair is marked dead. -/
  beacon : .beacon ∈ qp.sends → qp.dead = true

structure Registry (qps : Nat → Option QueuePair) (sockQp : Nat → Option Nat)
    (conns : Nat → Option (Option Nat)) (dead : List Nat) : Prop where
  wf : ∀ {q qp}, qps q = some qp → qp.WF
  socket : ∀ {k q}, sockQp k = some q →
    conns q = some (some k) ∧ ∃ qp, qps q = some qp ∧ qp.dead = false
  conn : ∀ {q k}, conns q = some (some k) → sockQp k = some q
  known : ∀ {q csi}, conns q = some csi → 0 < q ∧ ∃ qp, qps q = some qp
  retired : ∀ {q}, q ∈ dead → conns q = none ∧ ∃ qp, qps q = some qp
  nodup : dead.Nodup

namespace Registry

variable {qps : Nat → Option QueuePair} {sockQp : Nat → Option Nat}
  {conns : Nat → Option (Option Nat)} {dead : List Nat} {q k : Nat} {qp qp' : QueuePair}

/-- A queue pair changes, but not whether it is dead. -/
theorem updateQp (h : Registry qps sockQp conns dead) (hqp : qps q = some qp)
    (hwf : qp'.WF) (hdead : qp'.dead = qp.dead) :
    Registry (Function.update qps q (some qp')) sockQp conns dead := by
  have hexists : ∀ {q'}, (∃ qp, qps q' = some qp) →
      ∃ qp, Function.update qps q (some qp') q' = some qp := by
    rintro q' ⟨qp₀, hqp₀⟩
    by_cases hq : q' = q
    · exact ⟨qp', by simp [hq]⟩
    · exact ⟨qp₀, by simp [hq, hqp₀]⟩
  refine ⟨?_, ?_, h.conn, ?_, ?_, h.nodup⟩
  · intro q' qp₀ hqp₀
    by_cases hq : q' = q
    · subst hq
      rw [Function.update_self] at hqp₀
      cases hqp₀
      exact hwf
    · exact h.wf ((Function.update_of_ne hq ..).symm.trans hqp₀)
  · intro k' q' hsock
    obtain ⟨hconn, qp₀, hqp₀, hlive⟩ := h.socket hsock
    refine ⟨hconn, ?_⟩
    by_cases hq : q' = q
    · subst hq
      cases Option.some.inj (hqp.symm.trans hqp₀)
      exact ⟨qp', Function.update_self .., hdead.trans hlive⟩
    · exact ⟨qp₀, by simp [hq, hqp₀], hlive⟩
  · exact fun hconn => ⟨(h.known hconn).1, hexists (h.known hconn).2⟩
  · exact fun hq => ⟨(h.retired hq).1, hexists (h.retired hq).2⟩

/-- All queue pairs change in the same way. -/
theorem mapQps (h : Registry qps sockQp conns dead) (f : Nat → QueuePair → QueuePair)
    (hdead : ∀ q qp, (f q qp).dead = qp.dead) (hwf : ∀ q qp, qp.WF → (f q qp).WF) :
    Registry (fun q => (qps q).map (f q)) sockQp conns dead := by
  have hexists : ∀ {q}, (∃ qp, qps q = some qp) → ∃ qp, (qps q).map (f q) = some qp := by
    rintro q ⟨qp, hqp⟩
    exact ⟨f q qp, by simp [hqp]⟩
  refine ⟨?_, ?_, h.conn, ?_, ?_, h.nodup⟩
  · intro q qp hqp
    obtain ⟨qp₀, hqp₀, rfl⟩ := Option.map_eq_some_iff.mp hqp
    exact hwf q qp₀ (h.wf hqp₀)
  · intro k q hsock
    obtain ⟨hconn, qp, hqp, hlive⟩ := h.socket hsock
    exact ⟨hconn, f q qp, by simp [hqp], (hdead q qp).trans hlive⟩
  · exact fun hconn => ⟨(h.known hconn).1, hexists (h.known hconn).2⟩
  · exact fun hq => ⟨(h.retired hq).1, hexists (h.retired hq).2⟩

theorem sockQp_inj (h : Registry qps sockQp conns dead) {k' : Nat} (hk : sockQp k = some q)
    (hk' : sockQp k' = some q) : k' = k := by
  have := (h.socket hk').1.symm.trans (h.socket hk).1
  simpa using this

/-- `register_qp` for a new queue pair and a new connection. -/
theorem register (h : Registry qps sockQp conns dead) (hq : qps q = none) (hpos : 0 < q)
    (hk : sockQp k = none) (hdead : qp.dead = false) (hwf : qp.WF) :
    Registry (Function.update qps q (some qp)) (Function.update sockQp k (some q))
      (Function.update conns q (some (some k))) dead := by
  have hold : ∀ {q'}, (∃ qp, qps q' = some qp) → q' ≠ q := by
    rintro q' ⟨qp₀, hqp₀⟩ rfl
    exact nomatch hq.symm.trans hqp₀
  refine ⟨?_, ?_, ?_, ?_, ?_, h.nodup⟩
  · intro q' qp₀ hqp₀
    by_cases hqq : q' = q
    · subst hqq
      rw [Function.update_self] at hqp₀
      cases hqp₀
      exact hwf
    · exact h.wf ((Function.update_of_ne hqq ..).symm.trans hqp₀)
  · intro k' q' hsock
    by_cases hkk : k' = k
    · subst hkk
      rw [Function.update_self] at hsock
      cases hsock
      exact ⟨Function.update_self .., qp, Function.update_self .., hdead⟩
    · obtain ⟨hconn, qp₀, hqp₀, hlive⟩ :=
        h.socket ((Function.update_of_ne hkk ..).symm.trans hsock)
      have hne := hold ⟨qp₀, hqp₀⟩
      exact ⟨(Function.update_of_ne hne ..).trans hconn, qp₀,
        (Function.update_of_ne hne ..).trans hqp₀, hlive⟩
  · intro q' k' hconn
    by_cases hqq : q' = q
    · subst hqq
      rw [Function.update_self] at hconn
      cases Option.some.inj (Option.some.inj hconn)
      exact Function.update_self ..
    · have hsock := h.conn ((Function.update_of_ne hqq ..).symm.trans hconn)
      have hkk : k' ≠ k := by
        rintro rfl
        exact nomatch hk.symm.trans hsock
      exact (Function.update_of_ne hkk ..).trans hsock
  · intro q' csi hconn
    by_cases hqq : q' = q
    · subst hqq
      exact ⟨hpos, qp, Function.update_self ..⟩
    · obtain ⟨hpos', qp₀, hqp₀⟩ := h.known ((Function.update_of_ne hqq ..).symm.trans hconn)
      exact ⟨hpos', qp₀, (Function.update_of_ne hqq ..).trans hqp₀⟩
  · intro q' hq'
    obtain ⟨hnone, qp₀, hqp₀⟩ := h.retired hq'
    have hne := hold ⟨qp₀, hqp₀⟩
    exact ⟨(Function.update_of_ne hne ..).trans hnone, qp₀,
      (Function.update_of_ne hne ..).trans hqp₀⟩

/-- The connection of `q` goes; its entry in the map stays without it. -/
theorem forget (h : Registry qps sockQp conns dead) (hk : sockQp k = some q) (qp : QueuePair)
    (hwf : qp.WF) :
    Registry (Function.update qps q (some qp)) (Function.update sockQp k none)
      (Function.update conns q (some none)) dead := by
  obtain ⟨hconn, _⟩ := h.socket hk
  have hexists : ∀ {q'}, (∃ qp, qps q' = some qp) →
      ∃ qp₀, Function.update qps q (some qp) q' = some qp₀ := by
    rintro q' ⟨qp₀, hqp₀⟩
    by_cases hq : q' = q
    · exact ⟨qp, by simp [hq]⟩
    · exact ⟨qp₀, by simp [hq, hqp₀]⟩
  refine ⟨?_, ?_, ?_, ?_, ?_, h.nodup⟩
  · intro q' qp₀ hqp₀
    by_cases hqq : q' = q
    · subst hqq
      rw [Function.update_self] at hqp₀
      cases hqp₀
      exact hwf
    · exact h.wf ((Function.update_of_ne hqq ..).symm.trans hqp₀)
  · intro k' q' hsock
    have hkk : k' ≠ k := by
      rintro rfl
      exact nomatch (Function.update_self ..).symm.trans hsock
    have hsock' := (Function.update_of_ne hkk ..).symm.trans hsock
    obtain ⟨hconn', qp₀, hqp₀, hlive⟩ := h.socket hsock'
    have hqq : q' ≠ q := by
      rintro rfl
      exact hkk (h.sockQp_inj hk hsock')
    exact ⟨(Function.update_of_ne hqq ..).trans hconn', qp₀,
      (Function.update_of_ne hqq ..).trans hqp₀, hlive⟩
  · intro q' k' hconn'
    have hqq : q' ≠ q := by
      rintro rfl
      rw [Function.update_self] at hconn'
      exact nomatch Option.some.inj hconn'
    have hsock := h.conn ((Function.update_of_ne hqq ..).symm.trans hconn')
    have hkk : k' ≠ k := by
      rintro rfl
      exact hqq (Option.some.inj (hsock.symm.trans hk))
    exact (Function.update_of_ne hkk ..).trans hsock
  · intro q' csi hconn'
    by_cases hqq : q' = q
    · subst hqq
      exact ⟨(h.known hconn).1, qp, Function.update_self ..⟩
    · have := h.known ((Function.update_of_ne hqq ..).symm.trans hconn')
      exact ⟨this.1, hexists this.2⟩
  · intro q' hq'
    obtain ⟨hnone, hqp₀⟩ := h.retired hq'
    have hqq : q' ≠ q := by
      rintro rfl
      exact nomatch hnone.symm.trans hconn
    exact ⟨(Function.update_of_ne hqq ..).trans hnone, hexists hqp₀⟩

/-- An entry without a connection moves to the dead queue pairs. -/
theorem enqueue (h : Registry qps sockQp conns dead) (hconn : conns q = some none) :
    Registry qps sockQp (Function.update conns q none) (dead ++ [q]) := by
  refine ⟨h.wf, ?_, ?_, ?_, ?_, ?_⟩
  · intro k' q' hsock
    obtain ⟨hconn', hlive⟩ := h.socket hsock
    have hqq : q' ≠ q := by
      rintro rfl
      exact nomatch Option.some.inj (hconn.symm.trans hconn')
    exact ⟨(Function.update_of_ne hqq ..).trans hconn', hlive⟩
  · intro q' k' hconn'
    have hqq : q' ≠ q := by
      rintro rfl
      exact nomatch (Function.update_self ..).symm.trans hconn'
    exact h.conn ((Function.update_of_ne hqq ..).symm.trans hconn')
  · intro q' csi hconn'
    have hqq : q' ≠ q := by
      rintro rfl
      exact nomatch (Function.update_self ..).symm.trans hconn'
    exact h.known ((Function.update_of_ne hqq ..).symm.trans hconn')
  · intro q' hq'
    rcases List.mem_append.mp hq' with hold | hnew
    · obtain ⟨hnone, hqp₀⟩ := h.retired hold
      refine ⟨?_, hqp₀⟩
      by_cases hqq : q' = q
      · simp [hqq]
      · exact (Function.update_of_ne hqq ..).trans hnone
    · cases List.mem_singleton.mp hnew
      exact ⟨Function.update_self .., (h.known hconn).2⟩
  · refine List.nodup_append.mpr ⟨h.nodup, List.nodup_singleton q, ?_⟩
    rintro q' hold _ hnew rfl
    cases List.mem_singleton.mp hnew
    exact nomatch (h.retired hold).1.symm.trans hconn

/-- A dead queue pair is deleted. -/
theorem delete (h : Registry qps sockQp conns (q :: dead)) :
    Registry (Function.update qps q none) sockQp conns dead := by
  obtain ⟨hnone, _⟩ := h.retired List.mem_cons_self
  obtain ⟨hnot, hnodup⟩ := List.nodup_cons.mp h.nodup
  have hkeep : ∀ {q'}, q' ≠ q → Function.update qps q none q' = qps q' := fun hne =>
    Function.update_of_ne hne ..
  have hother : ∀ {q' csi}, conns q' = some csi → q' ≠ q := by
    rintro q' csi hconn rfl
    exact nomatch hnone.symm.trans hconn
  refine ⟨?_, ?_, h.conn, ?_, ?_, hnodup⟩
  · intro q' qp₀ hqp₀
    have hqq : q' ≠ q := by
      rintro rfl
      exact nomatch (Function.update_self ..).symm.trans hqp₀
    exact h.wf ((hkeep hqq).symm.trans hqp₀)
  · intro k' q' hsock
    obtain ⟨hconn, qp₀, hqp₀, hlive⟩ := h.socket hsock
    exact ⟨hconn, qp₀, (hkeep (hother hconn)).trans hqp₀, hlive⟩
  · intro q' csi hconn
    obtain ⟨hpos, qp₀, hqp₀⟩ := h.known hconn
    exact ⟨hpos, qp₀, (hkeep (hother hconn)).trans hqp₀⟩
  · intro q' hq'
    obtain ⟨hnone', qp₀, hqp₀⟩ := h.retired (List.mem_cons_of_mem _ hq')
    have hqq : q' ≠ q := fun heq => hnot (heq ▸ hq')
    exact ⟨hnone', qp₀, (hkeep hqq).trans hqp₀⟩

end Registry

end RdmaCapsule.Core
