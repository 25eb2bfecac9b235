import RdmaCapsule.Core.ReadSpec

/-! The receive stream of one connection. Completions come in batches, together with
those of other connections; `read` takes bytes in any amounts. The stream that was
passed to the connection and the number of bytes that were returned say at all
times what is left to read, and which chunks the connection still has. -/
namespace RdmaCapsule.Core

open RdmaCapsule.Foundation Segments

namespace World

variable {w w' : World} {k q : Nat} {s s' : Socket} {config : Config} {op : Op}

/-- The connection has been passed `more`, and nothing else has happened to what it is
reading. -/
structure Passes (k q : Nat) (w : World) (s : Socket) (more : List RxWc) (w' : World)
    (s' : Socket) : Prop where
  reads : w'.Reads k q s'
  wc : s'.wc = s.wc ++ more
  unread : w'.unread k = w.unread k ++ arrived more

theorem Reads.passes {touched : List Nat} {more : List RxWc} (h : w.Reads k q s)
    (hheld : w.Held (w.out noPolled)) (hstill : w.ib.Still touched w'.ib)
    (happart : ∀ c ∈ s.buffers, c ∉ touched) (hs' : w'.socks k = some s') (hqp : s'.qp = s.qp)
    (hbuffers : s'.buffers = s.buffers) (hwc : s'.wc = s.wc ++ more)
    (hmore : ∀ response ∈ more, response.status = .success) : Passes k q w s more w' s' := by
  have hsizes : w'.ib.sizes s'.buffers = w.ib.sizes s.buffers := by
    rw [hbuffers]
    refine sizes_of_still s.buffers hstill (fun c hc => ?_) happart
    exact hheld.made_of_out (o := .buffers k) (by rw [out_buffers h.sock]; exact hc)
  refine ⟨⟨hs', hqp.trans h.qp, ?_, hsizes ▸ h.positive⟩, hwc, ?_⟩
  · intro response hmem
    rw [hwc] at hmem
    exact (List.mem_append.mp hmem).elim (h.success response) (hmore response)
  · rw [unread_of_sock hs', unread_of_sock h.sock, hsizes, hwc, List.append_assoc]
    congr 1
    simp [arrived]

theorem Reads.aside {touched : List Nat} (h : w.Reads k q s) (hheld : w.Held (w.out noPolled))
    (haside : Aside touched k w w') (happart : ∀ c ∈ s.buffers, c ∉ touched) :
    ∃ s', s'.ep = s.ep ∧ Passes k q w s [] w' s' := by
  obtain ⟨s', hs', hqp, hep, hwc, hbuffers⟩ := haside.sock s h.sock
  refine ⟨s', hep, ?_⟩
  exact h.passes hheld haside.still happart hs' hqp hbuffers (by simpa using hwc) (by simp)

/-- The chunks of another connection are not those of this one. -/
theorem Reads.apart {k' : Nat} (h : w.Reads k q s) (hheld : w.Held (w.out noPolled))
    (hk : k ≠ k') : ∀ c ∈ s.buffers,
      c ∉ w.out noPolled (.wc k') ++ w.out noPolled (.buffers k') := by
  intro c hc hmem
  have hown : c ∈ w.out noPolled (.buffers k) := by
    rw [out_buffers h.sock]
    exact hc
  rcases List.mem_append.mp hmem with hwc | hbuffers
  · have hsame := hheld.placed.exclusive.apart (p := .out (.buffers k)) (q := .out (.wc k'))
      hown hwc
    exact nomatch hsame
  · have hsame := hheld.placed.exclusive.apart (p := .out (.buffers k))
      (q := .out (.buffers k')) hown hbuffers
    cases hsame
    exact hk rfl

/-- The completions of a queue pair in a batch. -/
def passedBy (q : Nat) : Op → List RxWc
  | .handleRxEvent cqe => cqe.filter (·.qpNum = q)
  | _ => []

/-- What an operation does to a connection that is being read: it passes completions to it,
or it is one of the connection's own. -/
theorem Reads.step_cases (h : w.Reads k q s) (hheld : w.Held (w.out noPolled))
    (henabled : w.Enabled op) (hrun : w.step config op = .ok w') :
    (∃ s', s'.ep = s.ep ∧ Passes k q w s (passedBy q op) w' s') ∨
    (∃ call answers result s', op = .call k call answers ∧
      s.ep.call w.tx answers call = .ok result ∧ s'.ep = result.1 ∧ Passes k q w s [] w' s') ∨
    (∃ len answers, op = .read k len answers) ∨ op = .drain k ∨
    ∃ switched, op = .destroy k switched := by
  have hquiet (haside : Aside [] k w w') : ∃ s', s'.ep = s.ep ∧ Passes k q w s [] w' s' :=
    h.aside hheld haside (by simp)
  cases op with
  | create k' q' isServer answer =>
      have hk : k ≠ k' := by
        rintro rfl
        exact nomatch henabled.1.symm.trans h.sock
      exact .inl (hquiet ((aside_create config isServer answer q' hk).value hrun))
  | call k' call answers =>
      by_cases hk : k = k'
      · subst hk
        obtain ⟨hstill, result, hcall, hs'⟩ := (call_own h.sock call answers).value hrun
        exact .inr (.inl ⟨call, answers, result, _, rfl, hcall, rfl,
          h.passes hheld hstill (by simp) hs' rfl rfl (by simp) (by simp)⟩)
      · exact .inl (hquiet ((aside_call call answers hk).value hrun))
  | setTxcCallback k' => exact .inl (hquiet ((aside_setTxcCallback k k' w).value hrun))
  | read k' len answers =>
      by_cases hk : k = k'
      · subst hk
        exact .inr (.inr (.inl ⟨len, answers, rfl⟩))
      · obtain ⟨result, hread, hresult⟩ := bind_eq_ok hrun
        have hw' : result.2 = w' := Except.ok.inj hresult
        have haside := (aside_read config answers len hk).value hread
        rw [hw'] at haside
        exact .inl (h.aside hheld haside (h.apart hheld hk))
  | drain k' =>
      by_cases hk : k = k'
      · subst hk
        exact .inr (.inr (.inr (.inl rfl)))
      · exact .inl (hquiet ((aside_drain config hk).value hrun))
  | updatePostBacklog k' =>
      exact .inl (hquiet ((aside_updatePostBacklog k config k' w).value hrun))
  | handleRxEvent cqe =>
      obtain ⟨hstill, hsuccess, s', hs', hqp, hep, hbuffers, hwc⟩ :=
        (handleRxEvent_passes hheld config cqe henabled h.sock h.qp).value hrun
      refine .inl ⟨s', hep, h.passes hheld hstill (by simp) hs' hqp hbuffers hwc ?_⟩
      intro response hmem
      exact hsuccess response (List.mem_of_mem_filter hmem)
  | handleTxEvent cqe =>
      have hcompleted : Aside [] k w (w.completeTx cqe) :=
        aside_of_socks (Infiniband.still_of_eq rfl rfl) rfl
      exact .inl (hquiet (hcompleted.trans ((aside_handleTxEvent k cqe _).value hrun)))
  | destroy k' switched =>
      by_cases hk : k = k'
      · subst hk
        exact .inr (.inr (.inr (.inr ⟨switched, rfl⟩)))
      · exact .inl (hquiet ((aside_destroy switched hk).value hrun))
  | idle => exact .inl (hquiet ((aside_idle k w).value hrun))

theorem readResult_toNat (ep : Endpoint) (n : Nat) : (readResult ep n).toNat = n := by
  unfold readResult
  split
  · omega
  · split
    · omega
    · rfl

theorem readResult_pos (ep : Endpoint) {n : Nat} (h : 0 < n) : readResult ep n = n := by
  unfold readResult
  rw [if_neg (by omega), if_neg (by omega)]

/-- What a connection is reading is not in the pool. -/
theorem Held.unread_apart {seg : Nat × Nat} (hheld : w.Held (w.out noPolled))
    (hseg : seg ∈ w.unread k) : seg.1 ∉ w.ib.free := by
  intro hfree
  have hslot : ∃ slot, seg.1 ∈ w.out noPolled slot := by
    cases hs : w.socks k with
    | none =>
        unfold World.unread at hseg
        rw [hs] at hseg
        exact nomatch hseg
    | some s =>
        rw [unread_of_sock hs] at hseg
        rcases List.mem_append.mp hseg with hbuffers | hwc
        · obtain ⟨c, hc, rfl⟩ := List.mem_map.mp hbuffers
          exact ⟨.buffers k, by rw [out_buffers hs]; exact hc⟩
        · obtain ⟨response, hmem, rfl⟩ := List.mem_map.mp hwc
          refine ⟨.wc k, ?_⟩
          rw [out_wc hs]
          exact List.mem_map_of_mem (List.mem_of_mem_filter hmem)
  obtain ⟨slot, hslot⟩ := hslot
  have hsame := hheld.placed.exclusive.apart (p := .free) (q := .out slot) hfree hslot
  exact nomatch hsame

/-- `read` on a connection that is active and connected. -/
theorem read_connected (h : w.Held (w.out noPolled)) (hreads : w.Reads k q s)
    (hactive : s.ep.active = true) (hconnected : s.ep.connected = true) (config : Config)
    (answers : Answers) {len : UInt64} (hlen : 0 < len.toNat) :
    Ends (w.read config answers k len)
      (fun result => ∃ s', s'.ep = (lookedAt s s.wc).ep ∧
        Took k w s (min len.toNat (total (w.unread k))) result.2 s' ∧
        result.1 = readResult s'.ep (min len.toNat (total (w.unread k))))
      fun fault => ¬ w.NoBacklog k ∧ fault.Posting ∨
        ¬ Fits len.toNat (total (w.unread k)) ∧ fault = .spins := by
  have hbuffers : s.ep.readsBuffers = true := by simp [Endpoint.readsBuffers, hactive, hconnected]
  refine (read_reads h hreads hbuffers config answers hlen).mono ?_ ?_
  · rintro result ⟨tx, s', hafter, htook, hr⟩
    rw [afterRead_of_connected ((lookedAt_connected s s.wc).trans hconnected)] at hafter
    exact ⟨s', (Except.ok.inj hafter).symm, htook, hr⟩
  · rintro fault (hposting | hspins | hnot)
    · exact .inl hposting
    · exact .inr hspins
    · exact nomatch hnot.symm.trans hconnected

/-- `read` on a connection that does not come as far as `read_buffers`. -/
theorem read_early {answers : Answers} {len : UInt64} {r : Int} (hs : w.socks k = some s)
    (hbuffers : s.ep.readsBuffers = false)
    (hrun : w.read config answers k len = .ok (r, w')) : r = -eagain ∧ w' = w := by
  unfold World.read at hrun
  rw [sock_of_some hs, ok_bind, if_neg (by simp [hbuffers])] at hrun
  cases hrun
  exact ⟨rfl, rfl⟩

/-- The connection is there, and no completion has been passed to it. -/
def Unused (w : World) (k q : Nat) : Prop :=
  ∃ s, w.socks k = some s ∧ s.qp = some q ∧ s.wc = [] ∧ s.buffers = []

theorem Unused.reads (h : w.Unused k q) : ∃ s, w.Reads k q s ∧ s.wc = [] ∧ w.unread k = [] := by
  obtain ⟨s, hs, hq, hwc, hbuffers⟩ := h
  refine ⟨s, ⟨hs, hq, by simp [hwc], ?_⟩, hwc, ?_⟩
  · rw [hbuffers]
    intro seg hseg
    exact nomatch hseg
  · rw [unread_of_sock hs, hwc, hbuffers]
    rfl

end World

/-- The process with a record of the stream of one connection. -/
structure Stream where
  w : World
  /-- Chunks passed to the connection with their bytes, oldest first. -/
  passed : List (Nat × Nat)
  /-- Bytes that `read` has returned. -/
  returned : Nat

namespace Stream

variable {config : Config} {k q : Nat} {st st' : Stream} {op : Op}

def segments (wc : List RxWc) : List (Nat × Nat) :=
  wc.map fun response => (response.chunk, response.byteLen.toNat)

/-- The bytes that an operation returns from connection `k`. -/
def returnedBy (config : Config) (k : Nat) (w : World) : Op → Nat
  | .read k' len answers =>
      if k' = k then
        match w.read config answers k len with
        | .ok (r, _) => r.toNat
        | .error _ => 0
      else 0
  | _ => 0

def Start (config : Config) (k q : Nat) (st : Stream) : Prop :=
  (World.machine config).Reachable st.w ∧ st.w.Unused k q ∧ st.passed = [] ∧ st.returned = 0

/-- Whether an operation belongs to the stream of the connection: messages have bytes,
`read` wants some, and nothing is thrown away. -/
def Streams (k q : Nat) : Op → Prop
  | .handleRxEvent cqe => ∀ response ∈ cqe, response.qpNum = q → response.byteLen ≠ 0
  | .read k' len _ => k' = k → 0 < len.toNat
  | .drain k' => k' ≠ k
  | .destroy k' _ => k' ≠ k
  | _ => True

def step (config : Config) (k q : Nat) (st : Stream) (op : Op) : Except Fault Stream := do
  let w ← st.w.step config op
  pure ⟨w, st.passed ++ segments (World.passedBy q op),
    st.returned + returnedBy config k st.w op⟩

def machine (config : Config) (k q : Nat) : Machine Stream Op Fault where
  start := Start config k q
  enabled st op := st.w.Enabled op ∧ Streams k q op
  step := step config k q

theorem world_reachable (h : (machine config k q).Reachable st) :
    (World.machine config).Reachable st.w := by
  refine h.project Stream.w (fun _ hstart => hstart.1) ?_
  intro before op after henabled hrun
  obtain ⟨w, hstep, hafter⟩ := bind_eq_ok hrun
  cases hafter
  exact ⟨henabled.1, hstep⟩

structure Sound (k q : Nat) (st : Stream) : Prop where
  reads : ∃ s, st.w.Reads k q s ∧ ∀ response ∈ s.wc, response.byteLen ≠ 0
  unread : st.w.unread k = left st.returned st.passed
  within : st.returned ≤ total st.passed

theorem Sound.start (h : Start config k q st) : st.Sound k q := by
  obtain ⟨_, hunused, hpassed, hreturned⟩ := h
  obtain ⟨s, hreads, hwc, hunread⟩ := hunused.reads
  refine ⟨⟨s, hreads, by simp [hwc]⟩, ?_, by simp [hreturned]⟩
  rw [hunread, hpassed]
  rfl

theorem arrived_eq_segments {wc : List RxWc} (h : ∀ response ∈ wc, response.byteLen ≠ 0) :
    arrived wc = segments wc := by
  unfold arrived segments
  rw [List.filter_eq_self.mpr (by simpa using h)]

theorem passedBy_nonempty (h : Streams k q op) :
    ∀ response ∈ World.passedBy q op, response.byteLen ≠ 0 := by
  cases op with
  | handleRxEvent cqe =>
      intro response hmem
      obtain ⟨hmem, hq⟩ := List.mem_filter.mp hmem
      exact h response hmem (by simpa using hq)
  | _ => intro response hmem; exact nomatch hmem

theorem Sound.passes {s s' : Socket} {w' : World} {more : List RxWc} (h : st.Sound k q)
    (hwc : ∀ response ∈ s.wc, response.byteLen ≠ 0)
    (hpasses : World.Passes k q st.w s more w' s')
    (hmore : ∀ response ∈ more, response.byteLen ≠ 0) :
    Sound k q ⟨w', st.passed ++ segments more, st.returned⟩ := by
  have hpositive : Positive (segments more) :=
    arrived_eq_segments hmore ▸ World.positive_arrived more
  refine ⟨⟨s', hpasses.reads, ?_⟩, ?_, ?_⟩
  · intro response hmem
    rw [hpasses.wc] at hmem
    exact (List.mem_append.mp hmem).elim (hwc response) (hmore response)
  · dsimp only
    rw [hpasses.unread, h.unread, arrived_eq_segments hmore, left_append h.within hpositive]
  · dsimp only
    rw [total_append]
    exact h.within.trans (Nat.le_add_right _ _)

theorem Sound.took {s s' : Socket} {w' : World} {n : Nat} (h : st.Sound k q)
    (hreads : st.w.Reads k q s) (htook : World.Took k st.w s n w' s')
    (hn : n ≤ total (st.w.unread k)) : Sound k q ⟨w', st.passed, st.returned + n⟩ := by
  refine ⟨⟨s', htook.reads hreads, by simp [htook.wc]⟩, ?_, ?_⟩
  · dsimp only
    rw [htook.unread, h.unread, left_left]
  · dsimp only
    have hwithin := h.within
    rw [h.unread, total_left] at hn
    omega

theorem returnedBy_other (hread : ∀ len answers, op ≠ .read k len answers) (w : World) :
    returnedBy config k w op = 0 := by
  cases op with
  | read k' len answers =>
      have hk : k' ≠ k := by
        rintro rfl
        exact hread len answers rfl
      exact if_neg hk
  | _ => rfl

theorem Sound.read (h : st.Sound k q) (hheld : st.w.Held (st.w.out World.noPolled))
    {len : UInt64} {answers : Answers} (hlen : 0 < len.toNat)
    (hrun : step config k q st (.read k len answers) = .ok st') : st'.Sound k q := by
  obtain ⟨w₁, hstep, hst'⟩ := bind_eq_ok hrun
  cases hst'
  obtain ⟨⟨r, w'⟩, hread, hw'⟩ := bind_eq_ok hstep
  cases hw'
  have hreturned : returnedBy config k st.w (.read k len answers) = r.toNat := by
    simp [returnedBy, hread]
  have hpassed : st.passed ++ segments (World.passedBy q (.read k len answers)) = st.passed :=
    List.append_nil _
  rw [hreturned, hpassed]
  obtain ⟨s, hreads, hwc⟩ := h.reads
  cases hbuffers : s.ep.readsBuffers with
  | true =>
      obtain ⟨_, s', _, htook, hr⟩ :=
        (World.read_reads hheld hreads hbuffers config answers hlen).value hread
      dsimp only at htook hr ⊢
      rw [hr, World.readResult_toNat]
      exact h.took hreads htook (Nat.min_le_right _ _)
  | false =>
      obtain ⟨rfl, rfl⟩ := World.read_early hreads.sock hbuffers hread
      exact h

theorem Sound.step (h : st.Sound k q) (hheld : st.w.Held (st.w.out World.noPolled))
    (henabled : (machine config k q).enabled st op)
    (hrun : step config k q st op = .ok st') : st'.Sound k q := by
  by_cases hread : ∃ len answers, op = .read k len answers
  · obtain ⟨len, answers, rfl⟩ := hread
    exact h.read hheld (henabled.2 rfl) hrun
  · have hreturned : returnedBy config k st.w op = 0 :=
      returnedBy_other (fun len answers heq => hread ⟨len, answers, heq⟩) st.w
    obtain ⟨w, hstep, hst'⟩ := bind_eq_ok hrun
    cases hst'
    rw [hreturned, Nat.add_zero]
    obtain ⟨s, hreads, hwc⟩ := h.reads
    rcases hreads.step_cases hheld henabled.1 hstep with ⟨s', _, hpasses⟩ |
      ⟨call, answers, result, s', rfl, _, _, hpasses⟩ | hread' | rfl | ⟨switched, rfl⟩
    · exact h.passes hwc hpasses (passedBy_nonempty henabled.2)
    · have hpassed := h.passes hwc hpasses (by simp)
      exact hpassed
    · exact absurd hread' hread
    · exact absurd rfl henabled.2
    · exact absurd rfl henabled.2

theorem sound_of_reachable (h : (machine config k q).Reachable st) : st.Sound k q := by
  refine h.invariant (fun _ hstart => .start hstart) ?_
  intro before op after hreachable hsound henabled hrun
  exact hsound.step (World.held_of_reachable (world_reachable hreachable)) henabled hrun

/-- In every run, what a connection still has is the stream that was passed to it after the
bytes that `read` has returned, and no chunk of it is in the pool. A further `read` returns as
many bytes as it wants or there are; it gives back the chunks of which that was the last byte,
and no other. -/
theorem receive_stream (config : Config) (k q : Nat) (st : Stream)
    (h : (machine config k q).Reachable st) :
    st.returned ≤ total st.passed ∧
    st.w.unread k = left st.returned st.passed ∧
    (∀ seg ∈ left st.returned st.passed, seg.1 ∉ st.w.ib.free) ∧
    ∀ (s : Socket) (len : UInt64) (answers : Answers), st.w.socks k = some s →
      s.ep.active = true → s.ep.connected = true → s.postBacklog = 0 →
      0 < len.toNat → len.toNat < 2 ^ 32 → 0 < total st.passed - st.returned →
      ∃ w', st.w.read config answers k len =
          .ok ((min len.toNat (total st.passed - st.returned) : Nat), w') ∧
        w'.unread k =
          left (st.returned + min len.toNat (total st.passed - st.returned)) st.passed ∧
        w'.ib.free = (done (min len.toNat (total st.passed - st.returned))
          (left st.returned st.passed)).reverse ++ st.w.ib.free := by
  have hheld := World.held_of_reachable (world_reachable h)
  have hsound := sound_of_reachable h
  refine ⟨hsound.within, hsound.unread, ?_, ?_⟩
  · intro seg hseg
    rw [← hsound.unread] at hseg
    exact hheld.unread_apart hseg
  · intro s len answers hs hactive hconnected hbacklog hlen hlen32 havailable
    obtain ⟨s', hreads, hwc⟩ := hsound.reads
    cases hs.symm.trans hreads.sock
    have hnone : st.w.NoBacklog k := by
      intro s' hs'
      cases hs.symm.trans hs'
      exact hbacklog
    have havail : total (st.w.unread k) = total st.passed - st.returned := by
      rw [hsound.unread, total_left]
    have hread := World.read_connected hheld hreads hactive hconnected config answers hlen
    obtain ⟨⟨r, w'⟩, hrun, s', _, htook, hr⟩ := (hread.mono (fun _ => id) fun fault hstop =>
      hstop.elim (fun hposting => hposting.1 hnone) fun hspins => hspins.1 (.inl hlen32)).returns
    rw [havail] at htook hr
    dsimp only at htook hr
    have hfins : s.wc.filter (·.byteLen = 0) = [] := by
      rw [List.filter_eq_nil_iff]
      simpa using hwc
    refine ⟨w', ?_, ?_, ?_⟩
    · rw [hrun, hr, World.readResult_pos _ (by omega)]
    · rw [htook.unread, hsound.unread, left_left]
    · rw [htook.free hnone, hsound.unread, hfins]
      rfl

/-- Two messages come, and two bytes are read before the rest. -/
theorem receive_stream_after_two_messages :
    ∃ st w', (machine World.smallConfig 0 1).Reachable st ∧ st.passed = [(0, 3), (1, 4)] ∧
      st.returned = 2 ∧ st.w.read World.smallConfig .good 0 9 = .ok (5, w') ∧
      w'.unread 0 = [] ∧ w'.ib.free = [1, 0, 3] := by
  have hfresh : (World.machine World.smallConfig).Reachable World.fresh := .start World.fresh_start
  have hcreated := hfresh.next (.create 0 1 false .created) ⟨rfl, rfl, by decide, by decide⟩ rfl
  have hstart : (machine World.smallConfig 0 1).Reachable ⟨_, [], 0⟩ :=
    .start ⟨hcreated, ⟨_, rfl, rfl, rfl, rfl⟩, rfl, rfl⟩
  have hconnected := hstart.next (.call 0 (.handleConnection
    (.message ⟨⟨0, 2, 520, 1, Vector.replicate 16 0⟩, ⟨0, 0, 0, 0⟩⟩)) .good) ⟨trivial, trivial⟩ rfl
  have hfirst := hconnected.next (.handleRxEvent [⟨1, 0, 3, .success⟩])
    ⟨⟨by decide, by simp; exact ⟨_, rfl, by decide⟩⟩, by simp [Streams]⟩ rfl
  have hsecond := hfirst.next (.handleRxEvent [⟨1, 1, 4, .success⟩])
    ⟨⟨by decide, by simp; exact ⟨_, rfl, by decide⟩⟩, by simp [Streams]⟩ rfl
  have hread := hsecond.next (.read 0 2 .good) ⟨trivial, fun _ => by decide⟩ rfl
  obtain ⟨w', hrun, hunread, hfree⟩ := (receive_stream World.smallConfig 0 1 _ hread).2.2.2 _ 9
    .good rfl rfl rfl rfl (by decide) (by decide) (by decide)
  exact ⟨_, w', hread, rfl, rfl, hrun, hunread, hfree⟩

end Stream

end RdmaCapsule.Core
