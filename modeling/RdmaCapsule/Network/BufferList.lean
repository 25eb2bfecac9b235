import Mathlib
import RdmaCapsule.Foundation.Machine
import RdmaCapsule.Network.PosixSend

/-! `BufferList` by itself: what `Move` takes away, and whether the length that a list keeps
is that of its buffers after any calls. A copy of a list has buffers and cursors of its
own, so the calls made on one list are a history by themselves. -/
namespace RdmaCapsule.Network

open RdmaCapsule.Foundation RdmaCapsule.Core

/-- `BufferList(Buffer &)`. -/
def ofBuffer (buffer : Buffer) : BufferList := ⟨[buffer], buffer.getRemainingLen⟩

/-- `DeleteNBuffer` of a list that is not empty. -/
def deleteNBuffer (n : UInt8) (bl : BufferList) : BufferList :=
  { bl with bufferList := bl.bufferList.eraseIdx (n.toNat % bl.bufferList.length) }

/-- The calls that change a list. A list may be appended to itself. -/
inductive Call where
  | append (buffer : Buffer)
  | appendList (other : BufferList)
  | appendItself
  | move (size : UInt32)
  | deleteNBuffer (n : UInt8)
  | clear

def call (bl : BufferList) : Call → Except BufferList.MoveStop BufferList
  | .append buffer => .ok (bl.appendBuffer buffer)
  | .appendList other => .ok (bl.append other)
  -- the loop over a list that grows by as much as has been read
  | .appendItself => if bl.bufferList = [] then .ok bl else .error .spins
  | .move size => (bl.move size).map (·.2)
  | .deleteNBuffer n => .ok (deleteNBuffer n bl)
  | .clear => .ok bl.clear

/-- The lengths that the buffers of a list have left. -/
def total (buffers : List Buffer) : Nat := (buffers.map (·.getRemainingLen.toNat)).sum

def LenExact (bl : BufferList) : Prop := bl.len.toNat = total bl.bufferList

instance (bl : BufferList) : Decidable (LenExact bl) := inferInstanceAs (Decidable (_ = _))

/-- The cursor of a buffer is never outside it. -/
def Given (bl : BufferList) : Call → Prop
  | .append buffer => Inside buffer
  | .appendList other => ∀ buffer ∈ other.bufferList, Inside buffer
  | .deleteNBuffer _ => bl.bufferList ≠ []
  | _ => True

/-- A list and the calls made on it, with a total that the length can hold. -/
def calls : Machine BufferList Call BufferList.MoveStop where
  start bl := bl = BufferList.empty ∨ ∃ buffer, Inside buffer ∧ bl = ofBuffer buffer
  enabled bl c := Given bl c ∧ ∀ after, call bl c = .ok after → total after.bufferList < 2 ^ 32
  step := call

/-- What `Move`, `DeleteNBuffer` and `Clear` may be called for: `Move` for no more than the
first buffer has, the others for what has nothing left. -/
def Kept (bl : BufferList) : Call → Prop
  | .move size => size = 0 ∨ ∀ buffer ∈ bl.bufferList.head?, size.toNat ≤ left buffer
  | .deleteNBuffer n =>
      ∀ buffer ∈ bl.bufferList[n.toNat % bl.bufferList.length]?, left buffer = 0
  | .clear => bl.len = 0
  | _ => True

/-- The buffers without their first `n` bytes. Those that are emptied go. -/
def dropBytes : Nat → List Buffer → List Buffer
  | _, [] => []
  | n, buffer :: rest =>
      if n = 0 then buffer :: rest
      else if left buffer ≤ n then dropBytes (n - left buffer) rest
      else trim buffer n :: rest

/-- `Move` takes the first `n` bytes away, as far as there are so many, and returns how many
there were not. -/
def MovesPrefix (bl : BufferList) (n : UInt32) : Prop :=
  ∃ r bl', bl.move n = .ok (r, bl') ∧ r.toNat = n.toNat - min n.toNat bl.len.toNat ∧
    held bl' = (held bl).drop (min n.toNat bl.len.toNat) ∧
    bl'.bufferList = dropBytes n.toNat bl.bufferList

/-- There is nothing to do, or what is to go is of the first buffer and is not all. -/
def WithinFirst (bl : BufferList) (n : UInt32) : Prop :=
  n = 0 ∨ ∀ buffer ∈ bl.bufferList.head?, n.toNat ≤ left buffer ∧ n < bl.len

instance (bl : BufferList) (n : UInt32) : Decidable (WithinFirst bl n) :=
  inferInstanceAs (Decidable (_ ∨ _))

variable {bl : BufferList}

theorem dropBytes_zero (buffers : List Buffer) : dropBytes 0 buffers = buffers := by
  cases buffers with
  | nil => rfl
  | cons buffer rest => rw [dropBytes, if_pos rfl]

theorem held_cons (buffer : Buffer) (rest : List Buffer) (len len' : UInt32) :
    held ⟨buffer :: rest, len⟩ = List.range' buffer.cur (left buffer) ++ held ⟨rest, len'⟩ := rfl

/-- What is dropped is counted in bytes. -/
theorem held_dropBytes (n : Nat) (buffers : List Buffer) (len : UInt32) :
    held ⟨dropBytes n buffers, len⟩ = (held ⟨buffers, len⟩).drop n := by
  induction buffers generalizing n with
  | nil => simp [dropBytes, held]
  | cons buffer rest ih =>
      rw [dropBytes]
      split
      · rename_i hzero
        rw [hzero, List.drop_zero]
      · split
        · rename_i hall
          have hgone : (List.range' buffer.cur (left buffer)).drop n = [] :=
            List.drop_eq_nil_of_le (by rwa [List.length_range'])
          rw [ih, held_cons buffer rest len len, List.drop_append, hgone, List.nil_append,
            List.length_range']
        · rename_i hpart
          have htrim := held_trimmed buffer rest n len len
          rw [trimmed, if_neg hpart, Nat.min_eq_left (by omega)] at htrim
          exact htrim

theorem dropBytes_first {buffer : Buffer} {n : Nat} (rest : List Buffer) (hpos : 0 < n)
    (hfirst : n ≤ left buffer) : dropBytes n (buffer :: rest) = trimmed buffer rest n := by
  rw [dropBytes, if_neg hpos.ne', trimmed]
  split
  · rw [Nat.sub_eq_zero_of_le hfirst, dropBytes_zero]
  · rfl

theorem move_zero (bl : BufferList) : bl.move 0 = .ok (0, bl) := by
  obtain ⟨buffers, len⟩ := bl
  cases buffers <;> rfl

theorem move_nil (n len : UInt32) : BufferList.move n ⟨[], len⟩ = .ok (n, ⟨[], len⟩) := rfl

/-- What `Move` takes off the length it takes from the first buffer, as far as that has it. -/
theorem move_cons {buffer : Buffer} {rest : List Buffer} {n : UInt32} (hbl : Proper bl)
    (hlist : bl.bufferList = buffer :: rest) (hpos : 0 < n.toNat) :
    bl.move n = if n < bl.len then .ok (0, ⟨trimmed buffer rest n.toNat, bl.len - n⟩)
      else .error .kassertLen := by
  have hinside : Inside buffer := hbl.1 buffer (by simp [hlist])
  rw [BufferList.move, hlist]
  split
  · rename_i hpart
    exact moveLoop_trims hinside rest hpos (UInt32.lt_iff_toNat_lt.mp hpart)
  · rename_i hall
    have hsize : n ≠ 0 := by
      rintro rfl
      exact absurd hpos (by decide)
    rw [BufferList.moveLoop, if_neg hsize, buffer_move hinside]
    dsimp only
    rw [UInt32.sub_zero, if_pos (UInt32.not_lt.mp hall)]

/-- A part of the list is taken away where the first buffer has all of it. -/
theorem movesPrefix_part {buffer : Buffer} {rest : List Buffer} {n : UInt32} (hbl : Proper bl)
    (hlist : bl.bufferList = buffer :: rest) (hpos : 0 < n.toNat) (hpart : n < bl.len) :
    MovesPrefix bl n ↔ n.toNat ≤ left buffer := by
  have hless : n.toNat < bl.len.toNat := UInt32.lt_iff_toNat_lt.mp hpart
  have hmove := move_cons hbl hlist hpos
  rw [if_pos hpart] at hmove
  have hheld : held bl = held ⟨buffer :: rest, bl.len - n⟩ := by rw [held, hlist, held]
  constructor
  · rintro ⟨r, bl', hrun, -, hrest, -⟩
    obtain ⟨rfl, rfl⟩ := Prod.mk.inj (Except.ok.inj (hmove.symm.trans hrun))
    -- no more is gone than the first buffer had
    have hlengths := congrArg List.length hrest
    rw [held_trimmed buffer rest n.toNat (bl.len - n), ← hheld, List.length_drop,
      List.length_drop, ← hbl.2] at hlengths
    omega
  · intro hfirst
    have hdrop := dropBytes_first rest hpos hfirst
    refine ⟨0, _, hmove, ?_, ?_, by rw [hlist, hdrop]⟩
    · rw [Nat.min_eq_left hless.le, Nat.sub_self]
      rfl
    · rw [← hdrop, held_dropBytes, Nat.min_eq_left hless.le, hheld]

/-- A call of `Move` on a list whose length is that of its buffers takes a prefix of their
bytes away exactly when nothing is asked for, the list is empty, or the first buffer has all
that is asked for and that is not the whole list. -/
theorem move_prefix_iff (bl : BufferList) (hbl : Proper bl) (n : UInt32) :
    MovesPrefix bl n ↔ WithinFirst bl n := by
  by_cases hzero : n = 0
  · subst hzero
    exact iff_of_true ⟨0, bl, move_zero bl, by simp, by simp, (dropBytes_zero _).symm⟩ (.inl rfl)
  have hpos : 0 < n.toNat := UInt32.lt_iff_toNat_lt.mp (UInt32.pos_iff_ne_zero.mpr hzero)
  cases hlist : bl.bufferList with
  | nil =>
      obtain ⟨buffers, len⟩ := bl
      cases hlist
      have hlen : len.toNat = 0 := hbl.2
      refine iff_of_true ⟨n, _, move_nil n len, ?_, by simp [held], rfl⟩ (.inr (by simp))
      rw [hlen, Nat.min_zero, Nat.sub_zero]
  | cons buffer rest =>
      have hwithin : WithinFirst bl n ↔ n.toNat ≤ left buffer ∧ n < bl.len := by
        simp [WithinFirst, hzero, hlist]
      rw [hwithin]
      by_cases hpart : n < bl.len
      · rw [movesPrefix_part hbl hlist hpos hpart, and_iff_left hpart]
      · have hmove := move_cons hbl hlist hpos
        rw [if_neg hpart] at hmove
        refine iff_of_false ?_ fun h => hpart h.2
        rintro ⟨r, bl', hrun, -⟩
        cases hmove.symm.trans hrun

/-- One byte of the first of two buffers. -/
theorem move_prefix_iff_one_byte : MovesPrefix ⟨[⟨10, 10, 2⟩, ⟨20, 20, 2⟩], 4⟩ 1 :=
  (move_prefix_iff _ (by decide) 1).mpr (.inr (by decide))

/-- Two buffers of two bytes: of three bytes two are taken away, and `Move` of all four
aborts. -/
theorem move_not_prefix :
    Proper ⟨[⟨10, 10, 2⟩, ⟨20, 20, 2⟩], 4⟩ ∧
      BufferList.move 3 ⟨[⟨10, 10, 2⟩, ⟨20, 20, 2⟩], 4⟩ = .ok (0, ⟨[⟨20, 20, 2⟩], 1⟩) ∧
      BufferList.move 4 ⟨[⟨10, 10, 2⟩, ⟨20, 20, 2⟩], 4⟩ = .error .kassertLen ∧
      ¬ MovesPrefix ⟨[⟨10, 10, 2⟩, ⟨20, 20, 2⟩], 4⟩ 3 ∧
      ¬ MovesPrefix ⟨[⟨10, 10, 2⟩, ⟨20, 20, 2⟩], 4⟩ 4 := by
  refine ⟨by decide, rfl, rfl, ?_, ?_⟩
  · rintro ⟨r, bl', hrun, -, hheld, -⟩
    cases hrun
    exact absurd hheld (by decide)
  · rintro ⟨r, bl', hrun, -⟩
    cases hrun

theorem total_eq_length_held {buffers : List Buffer} (len : UInt32)
    (hinside : ∀ buffer ∈ buffers, Inside buffer) :
    total buffers = (held ⟨buffers, len⟩).length := by
  induction buffers with
  | nil => rfl
  | cons buffer rest ih =>
      have hrest := ih fun buffer hmem => hinside buffer (List.mem_cons_of_mem _ hmem)
      rw [held_cons buffer rest len len, List.length_append, List.length_range', ← hrest, total,
        List.map_cons, List.sum_cons, getRemainingLen_toNat (hinside buffer List.mem_cons_self)]
      rfl

theorem LenExact.proper (h : LenExact bl) (hinside : ∀ buffer ∈ bl.bufferList, Inside buffer) :
    Proper bl :=
  ⟨hinside, Eq.trans h (total_eq_length_held bl.len hinside)⟩

theorem total_append (buffers rest : List Buffer) :
    total (buffers ++ rest) = total buffers + total rest := by
  simp [total]

theorem LenExact.appendBuffer (h : LenExact bl) (buffer : Buffer)
    (hfits : total (bl.bufferList ++ [buffer]) < 2 ^ 32) : LenExact (bl.appendBuffer buffer) := by
  unfold LenExact BufferList.appendBuffer at *
  rw [total_append] at hfits ⊢
  have hone : total [buffer] = buffer.getRemainingLen.toNat := by simp [total]
  rw [UInt32.toNat_add, h, ← hone, Nat.mod_eq_of_lt hfits]

theorem bufferList_append (bl : BufferList) (other : List Buffer) :
    (other.foldl BufferList.appendBuffer bl).bufferList = bl.bufferList ++ other := by
  induction other generalizing bl with
  | nil => simp
  | cons buffer rest ih => simp [ih, BufferList.appendBuffer]

/-- Each buffer is counted by what it has left, whatever the length of the other list says. -/
theorem LenExact.append (h : LenExact bl) (other : List Buffer)
    (hfits : total (bl.bufferList ++ other) < 2 ^ 32) :
    LenExact (other.foldl BufferList.appendBuffer bl) := by
  induction other generalizing bl with
  | nil => exact h
  | cons buffer rest ih =>
      have hsplit : bl.bufferList ++ buffer :: rest =
          (bl.appendBuffer buffer).bufferList ++ rest := by simp [BufferList.appendBuffer]
      rw [hsplit] at hfits
      refine ih (h.appendBuffer buffer ?_) hfits
      rw [total_append] at hfits
      exact lt_of_le_of_lt (Nat.le_add_right _ _) hfits

theorem total_eraseIdx {buffers : List Buffer} {i : Nat} (hi : i < buffers.length) :
    buffers[i].getRemainingLen.toNat + total (buffers.eraseIdx i) = total buffers := by
  have herase := List.CommMonoid.add_sum_eraseIdx
    (l := buffers.map (·.getRemainingLen.toNat)) (i := i) (by rwa [List.length_map])
  rwa [List.getElem_map, List.eraseIdx_map] at herase

theorem total_trimmed {buffer : Buffer} {rest : List Buffer} (n : Nat)
    (hinside : ∀ buffer' ∈ buffer :: rest, Inside buffer') :
    (∀ buffer' ∈ trimmed buffer rest n, Inside buffer') ∧
      total (trimmed buffer rest n) = total (buffer :: rest) - min n (left buffer) := by
  have hkept : ∀ buffer' ∈ trimmed buffer rest n, Inside buffer' := by
    intro buffer' hmem
    unfold trimmed at hmem
    split at hmem
    · exact hinside buffer' (List.mem_cons_of_mem _ hmem)
    · rcases List.mem_cons.mp hmem with rfl | hmem
      · exact (hinside buffer List.mem_cons_self).trim n
      · exact hinside buffer' (List.mem_cons_of_mem _ hmem)
  refine ⟨hkept, ?_⟩
  rw [total_eq_length_held 0 hkept, total_eq_length_held 0 hinside, held_trimmed buffer rest n 0,
    List.length_drop]

/-- `Move` takes what it is asked for off the length, and what the first buffer has of it off
the buffers. -/
theorem move_exact_iff {after : BufferList} {n : UInt32}
    (hinside : ∀ buffer ∈ bl.bufferList, Inside buffer) (h : LenExact bl)
    (hrun : call bl (.move n) = .ok after) :
    (∀ buffer ∈ after.bufferList, Inside buffer) ∧ (LenExact after ↔ Kept bl (.move n)) := by
  by_cases hzero : n = 0
  · subst hzero
    rw [call, move_zero] at hrun
    cases hrun
    exact ⟨hinside, iff_of_true h (.inl rfl)⟩
  have hpos : 0 < n.toNat := UInt32.lt_iff_toNat_lt.mp (UInt32.pos_iff_ne_zero.mpr hzero)
  cases hlist : bl.bufferList with
  | nil =>
      obtain ⟨buffers, len⟩ := bl
      cases hlist
      cases hrun
      exact ⟨hinside, iff_of_true h (.inr (by simp))⟩
  | cons buffer rest =>
      rw [call, move_cons (h.proper hinside) hlist hpos] at hrun
      rw [hlist] at hinside
      split at hrun
      · rename_i hpart
        cases hrun
        have hless : n.toNat < bl.len.toNat := UInt32.lt_iff_toNat_lt.mp hpart
        have hlen : (bl.len - n).toNat = bl.len.toNat - n.toNat :=
          UInt32.toNat_sub_of_le _ _ (UInt32.le_iff_toNat_le.mpr hless.le)
        obtain ⟨hkept, htotal⟩ := total_trimmed n.toNat hinside
        refine ⟨hkept, ?_⟩
        unfold LenExact at h
        rw [hlist] at h
        simp only [LenExact, Kept, htotal, hlen, ← h, hzero, hlist, List.head?_cons,
          Option.mem_some_iff, false_or, forall_eq']
        omega
      · cases hrun

theorem delete_exact_iff {n : UInt8} (hinside : ∀ buffer ∈ bl.bufferList, Inside buffer)
    (h : LenExact bl) (hsome : bl.bufferList ≠ []) :
    (∀ buffer ∈ (deleteNBuffer n bl).bufferList, Inside buffer) ∧
      (LenExact (deleteNBuffer n bl) ↔ Kept bl (.deleteNBuffer n)) := by
  have hindex : n.toNat % bl.bufferList.length < bl.bufferList.length :=
    Nat.mod_lt _ (List.length_pos_of_ne_nil hsome)
  have htotal := total_eraseIdx hindex
  rw [getRemainingLen_toNat (hinside _ (List.getElem_mem hindex))] at htotal
  refine ⟨fun buffer hmem => hinside buffer (List.mem_of_mem_eraseIdx hmem), ?_⟩
  unfold LenExact at h
  simp only [LenExact, Kept, deleteNBuffer, List.getElem?_eq_getElem hindex, Option.mem_some_iff,
    forall_eq']
  omega

/-- One call on a list whose length is exact: the length stays exact if the call is one of
those that `Kept` allows, and only then. -/
theorem call_exact_iff {after : BufferList} {c : Call}
    (hinside : ∀ buffer ∈ bl.bufferList, Inside buffer) (h : LenExact bl)
    (henabled : calls.enabled bl c) (hrun : call bl c = .ok after) :
    (∀ buffer ∈ after.bufferList, Inside buffer) ∧ (LenExact after ↔ Kept bl c) := by
  obtain ⟨hargument, hfits⟩ := henabled
  have htotal := hfits after hrun
  cases c with
  | append buffer =>
      cases hrun
      refine ⟨?_, iff_of_true (h.appendBuffer buffer htotal) trivial⟩
      intro buffer' hmem
      rcases List.mem_append.mp hmem with hold | hnew
      · exact hinside buffer' hold
      · exact List.mem_singleton.mp hnew ▸ hargument
  | appendList other =>
      cases hrun
      unfold BufferList.append at htotal ⊢
      rw [bufferList_append] at htotal ⊢
      refine ⟨?_, iff_of_true (h.append other.bufferList htotal) trivial⟩
      intro buffer hmem
      rcases List.mem_append.mp hmem with hold | hnew
      · exact hinside buffer hold
      · exact hargument buffer hnew
  | appendItself =>
      rw [call] at hrun
      split at hrun
      · cases hrun
        exact ⟨hinside, iff_of_true h trivial⟩
      · cases hrun
  | move n => exact move_exact_iff hinside h hrun
  | deleteNBuffer n =>
      cases hrun
      exact delete_exact_iff hinside h hargument
  | clear =>
      cases hrun
      refine ⟨by simp [BufferList.clear], ?_⟩
      simp only [LenExact, Kept, BufferList.clear, total, List.map_nil, List.sum_nil]
      exact ⟨fun hlen => UInt32.toNat_inj.mp hlen, fun hlen => by rw [hlen]; rfl⟩

/-- As long as `Move` is called for no more than the first buffer has, and `DeleteNBuffer`
and `Clear` for what has nothing left, the length is that of the buffers. The first call that
is not of these leaves another length. -/
theorem len_exact_of_kept {bl : BufferList} (h : (calls.restrict Kept).Reachable bl) :
    LenExact bl ∧ ∀ c after, calls.enabled bl c → calls.step bl c = .ok after →
      (LenExact after ↔ Kept bl c) := by
  have hexact : (∀ buffer ∈ bl.bufferList, Inside buffer) ∧ LenExact bl := by
    apply h.invariant
    · rintro first (rfl | ⟨buffer, hbuffer, rfl⟩)
      · exact ⟨by simp [BufferList.empty], rfl⟩
      · exact ⟨by simpa [ofBuffer] using hbuffer, by simp [LenExact, ofBuffer, total]⟩
    · rintro before c after - ⟨hinside, hlen⟩ ⟨henabled, hkept⟩ hrun
      obtain ⟨hinside', hiff⟩ := call_exact_iff hinside hlen henabled hrun
      exact ⟨hinside', hiff.mpr hkept⟩
  exact ⟨hexact.2, fun c after henabled hrun =>
    (call_exact_iff hexact.1 hexact.2 henabled hrun).2⟩

/-- A buffer of two bytes, and one of them moved. -/
theorem len_exact_of_kept_one_byte : LenExact ⟨[⟨10, 11, 2⟩], 1⟩ := by
  have hstart : (calls.restrict Kept).Reachable (ofBuffer ⟨10, 10, 2⟩) :=
    .start (.inr ⟨_, by decide, rfl⟩)
  have hnext : (calls.restrict Kept).Reachable ⟨[⟨10, 11, 2⟩], 1⟩ := hstart.next (.move 1)
    ⟨⟨trivial, by rintro after hrun; cases hrun; decide⟩, .inr (by decide)⟩ rfl
  exact (len_exact_of_kept hnext).1

/-- `Clear` leaves a length of two for no buffers. -/
theorem len_not_exact : ∃ bl, calls.Reachable bl ∧ ¬ LenExact bl := by
  have hstart : calls.Reachable (ofBuffer ⟨10, 10, 2⟩) := .start (.inr ⟨_, by decide, rfl⟩)
  exact ⟨⟨[], 2⟩, hstart.next .clear
    ⟨trivial, by rintro after hrun; cases hrun; decide⟩ rfl, by decide⟩

end RdmaCapsule.Network
