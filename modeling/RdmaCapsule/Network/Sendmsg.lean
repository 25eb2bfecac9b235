import RdmaCapsule.Foundation.Loop
import RdmaCapsule.Network.PosixSend

/-! `do_sendmsg` on its own, for answers of the kernel that may go on for ever. After each success
the array of iovecs is moved past what was accepted. -/
namespace RdmaCapsule.Network

open RdmaCapsule.Foundation

structure MsgState where
  /-- The entries from `msg_iov` on, `msg_iovlen` of them. -/
  iovs : List Iovec
  sent : Nat
  /-- How often `sendmsg` has been called. -/
  calls : Nat
  /-- What the kernel has accepted. -/
  wire : List Byte
  returned : Option Int

/-- `msg_iov[0]` is read where there are no entries left. -/
inductive PastLast where
  | pastLast

/-- The inner loop, entry by entry. -/
def drain (r : Nat) : List Iovec → Except PastLast (List Iovec)
  | [] => if r > 0 then .error .pastLast else .ok []
  | iov :: rest =>
      if r > 0 then
        if iov.iovLen ≤ r then drain (r - iov.iovLen) rest
        else .ok ({ iov with iovBase := iov.iovBase + r, iovLen := iov.iovLen - r } :: rest)
      else .ok (iov :: rest)

/-- One iteration of `while (1)`. -/
def sendmsgPass (answers : Nat → Outcome) (len : UInt32) (st : MsgState) :
    Except PastLast MsgState :=
  let called := { st with calls := st.calls + 1 }
  match answers st.calls with
  | .eintr => .ok called
  | .eagain => .ok { called with returned := some st.sent }
  | .failed errno => .ok { called with returned := some (-errno) }
  | .took r =>
      let sent := st.sent + r
      let wire := st.wire ++ (iovBytes st.iovs).take r
      if len.toNat = sent then .ok { called with sent, wire, returned := some sent }
      else do
        let iovs ← drain r st.iovs
        pure { called with sent, wire, iovs }

def sendmsgLoop (answers : Nat → Outcome) (len : UInt32) : Foundation.Loop MsgState PastLast where
  going st := st.returned.isNone
  body := sendmsgPass answers len

def MsgState.start (iovs : List Iovec) : MsgState := ⟨iovs, 0, 0, [], none⟩

/-- What `sendmsg` may give when so many bytes are offered: a hard error is not considered. -/
def Outcome.Possible (offered : Nat) : Outcome → Prop
  | .took r => 1 ≤ r ∧ r ≤ offered
  | .eintr => True
  | .eagain => True
  | .failed _ => False

/-- Each call of a run is answered for the array that it offers. -/
def Possible (answers : Nat → Outcome) (len : UInt32) (iovs : List Iovec) : Prop :=
  ∀ st, (sendmsgLoop answers len).Reaches (.start iovs) st → st.returned = none →
    (answers st.calls).Possible (iovBytes st.iovs).length

/-- A run of `do_sendmsg`, at every moment and where it ends. -/
structure Resumes (answers : Nat → Outcome) (len : UInt32) (iovs : List Iovec) : Prop where
  /-- No pass reads past the last entry. -/
  inside : ∀ n, ∃ st, (sendmsgLoop answers len).passes n (.start iovs) = .ok st
  accepted : ∀ st, (sendmsgLoop answers len).Reaches (.start iovs) st →
    st.wire = (iovBytes iovs).take st.sent ∧ st.sent ≤ len.toNat
  result : ∀ st r, (sendmsgLoop answers len).Reaches (.start iovs) st → st.returned = some r →
    r = st.sent ∧ st.wire = (iovBytes iovs).take r.toNat
  whole : ∀ st r, (sendmsgLoop answers len).Reaches (.start iovs) st → st.returned = some r →
    (∀ n < st.calls, answers n ≠ .eagain) → r = len.toNat
  ends : (∀ n, ∃ m ≥ n, answers m ≠ .eintr) →
    ∃ st, (sendmsgLoop answers len).Finishes (.start iovs) st

variable {answers : Nat → Outcome} {len : UInt32} {iovs : List Iovec} {st : MsgState}

theorem drain_eq (r : Nat) (iovs : List Iovec) (h : r ≤ (iovBytes iovs).length) :
    drain r iovs = .ok (advance r iovs) := by
  induction iovs generalizing r with
  | nil =>
      have hzero : ¬ r > 0 := by simpa [iovBytes] using h
      rw [drain, if_neg hzero]
      rfl
  | cons iov rest ih =>
      rw [iovBytes_cons, List.length_append, length_bytes] at h
      unfold drain advance
      by_cases hzero : r = 0
      · have hdone : ¬ r > 0 := by omega
        rw [if_neg hdone, if_pos hzero]
      · have hmore : r > 0 := by omega
        rw [if_pos hmore, if_neg hzero]
        split
        · exact ih _ (by omega)
        · rfl

/-- Where the function of a list of answers returns, the loop ends with the same. -/
theorem finishes_of_doSendmsg {outcomes rest : List Outcome} {r : Int} {wire : List Byte}
    (h : doSendmsg len.toNat outcomes st.sent st.iovs st.wire = .ok (r, wire, rest))
    (hgoing : st.returned = none)
    (hanswers : ∀ i outcome, outcomes[i]? = some outcome → answers (st.calls + i) = outcome) :
    ∃ after, (sendmsgLoop answers len).Finishes st after ∧ after.returned = some r ∧
      after.wire = wire := by
  induction outcomes generalizing st with
  | nil => cases h
  | cons outcome outcomes ih =>
      have hanswer : answers st.calls = outcome := hanswers 0 outcome rfl
      have hlater : ∀ i outcome, outcomes[i]? = some outcome →
          answers (st.calls + 1 + i) = outcome := by
        intro i outcome hi
        have hnext := hanswers (i + 1) outcome hi
        rwa [Nat.add_comm i 1, ← Nat.add_assoc] at hnext
      have hpass : ∀ next after, sendmsgPass answers len st = .ok next →
          (sendmsgLoop answers len).Finishes next after →
          (sendmsgLoop answers len).Finishes st after := fun next after hnext hafter =>
        (Foundation.Loop.finishes_of_going (by simp [sendmsgLoop, hgoing])).mpr
          ⟨next, hnext, hafter⟩
      have hend : ∀ next, sendmsgPass answers len st = .ok next → next.returned.isSome = true →
          (sendmsgLoop answers len).Finishes st next := fun next hnext hreturned =>
        hpass next next hnext
          ((Foundation.Loop.finishes_of_done (by simp [sendmsgLoop, hreturned])).mpr rfl)
      unfold sendmsgPass at hpass hend
      rw [hanswer] at hpass hend
      cases outcome with
      | eintr =>
          obtain ⟨after, hafter, hresult⟩ :=
            @ih { st with calls := st.calls + 1 } h hgoing hlater
          exact ⟨after, hpass _ _ rfl hafter, hresult⟩
      | eagain =>
          cases h
          exact ⟨_, hend _ rfl rfl, rfl, rfl⟩
      | failed errno =>
          cases h
          exact ⟨_, hend _ rfl rfl, rfl, rfl⟩
      | took n =>
          unfold doSendmsg at h
          split at h
          · cases h
          · rename_i hoffered
            dsimp only at hpass hend
            split at h
            · rename_i hall
              cases h
              rw [if_pos hall] at hend
              exact ⟨_, hend _ rfl rfl, rfl, rfl⟩
            · rename_i hmore
              rw [if_neg hmore, drain_eq n st.iovs (Nat.le_of_not_lt hoffered), ok_bind] at hpass
              obtain ⟨after, hafter, hresult⟩ := @ih ⟨advance n st.iovs, st.sent + n,
                st.calls + 1, st.wire ++ (iovBytes st.iovs).take n, st.returned⟩ h hgoing hlater
              exact ⟨after, hpass _ _ rfl hafter, hresult⟩

/-- The array and what has been accepted are the concatenation, cut at the number of bytes. -/
structure Cut (answers : Nat → Outcome) (len : UInt32) (iovs : List Iovec) (st : MsgState) :
    Prop where
  within : st.sent ≤ len.toNat
  wire : st.wire = (iovBytes iovs).take st.sent
  offered : st.returned = none → iovBytes st.iovs = (iovBytes iovs).drop st.sent
  result : ∀ r, st.returned = some r →
    r = st.sent ∧ (st.sent = len.toNat ∨ ∃ n < st.calls, answers n = .eagain)

theorem Cut.start (answers : Nat → Outcome) (len : UInt32) (iovs : List Iovec) :
    Cut answers len iovs (.start iovs) :=
  ⟨Nat.zero_le _, rfl, fun _ => rfl, fun _ h => nomatch h⟩

/-- What a call of `sendmsg` leads to: it is made again, the function returns, or there are fewer
bytes to be sent. -/
def Advances (answers : Nat → Outcome) (st next : MsgState) : Prop :=
  (answers st.calls = .eintr ∧ next.sent = st.sent) ∨ next.returned ≠ none ∨ st.sent < next.sent

theorem Cut.step (h : Cut answers len iovs st) (htotal : (iovBytes iovs).length = len.toNat)
    (hgoing : st.returned = none)
    (hpossible : (answers st.calls).Possible (iovBytes st.iovs).length) :
    ∃ next, sendmsgPass answers len st = .ok next ∧ Cut answers len iovs next ∧
      next.calls = st.calls + 1 ∧ Advances answers st next := by
  have hoffered := h.offered hgoing
  have hlength : (iovBytes st.iovs).length = len.toNat - st.sent := by
    rw [hoffered, List.length_drop, htotal]
  unfold sendmsgPass
  cases hanswer : answers st.calls with
  | eintr =>
      refine ⟨_, rfl, ⟨h.within, h.wire, h.offered, ?_⟩, rfl, .inl ⟨hanswer, rfl⟩⟩
      intro r hr
      exact absurd (hgoing.symm.trans hr) (by simp)
  | eagain =>
      refine ⟨_, rfl, ⟨h.within, h.wire, (fun hnone => nomatch hnone), ?_⟩, rfl,
        .inr (.inl (by simp))⟩
      rintro r ⟨⟩
      exact ⟨rfl, .inr ⟨st.calls, Nat.lt_succ_self _, hanswer⟩⟩
  | failed errno =>
      rw [hanswer] at hpossible
      exact hpossible.elim
  | took r =>
      rw [hanswer] at hpossible
      obtain ⟨hpos, hle⟩ := hpossible
      have hwire : st.wire ++ (iovBytes st.iovs).take r = (iovBytes iovs).take (st.sent + r) := by
        rw [h.wire, hoffered, List.take_add]
      have hwithin : st.sent + r ≤ len.toNat := by omega
      dsimp only
      split
      · rename_i hall
        refine ⟨_, rfl, ⟨hwithin, hwire, (fun hnone => nomatch hnone), ?_⟩, rfl,
          .inr (.inl (by simp))⟩
        rintro r' ⟨⟩
        exact ⟨rfl, .inl hall.symm⟩
      · rw [drain_eq r st.iovs hle, ok_bind]
        refine ⟨_, rfl, ⟨hwithin, hwire, fun _ => ?_, ?_⟩, rfl,
          .inr (.inr (Nat.lt_add_of_pos_right hpos))⟩
        · dsimp only
          rw [iovBytes_advance, hoffered, List.drop_drop]
        · intro r' hr'
          exact absurd (hgoing.symm.trans hr') (by simp)

theorem cut_of_reaches (htotal : (iovBytes iovs).length = len.toNat)
    (hpossible : Possible answers len iovs) (n : Nat) :
    ∃ st, (sendmsgLoop answers len).passes n (.start iovs) = .ok st ∧
      Cut answers len iovs st ∧ (sendmsgLoop answers len).Reaches (.start iovs) st := by
  refine Foundation.Loop.passes_returns (fun st => Cut answers len iovs st ∧
    (sendmsgLoop answers len).Reaches (.start iovs) st) ?_
    ⟨Cut.start answers len iovs, .refl _ _⟩ n
  rintro st ⟨hcut, hreaches⟩ hgoing
  have hnone : st.returned = none := Option.isNone_iff_eq_none.mp hgoing
  obtain ⟨next, hpass, hnext, -⟩ := hcut.step htotal hnone (hpossible st hreaches hnone)
  exact ⟨next, hpass, hnext, hreaches.step hgoing hpass⟩

open Classical in
/-- The calls that are interrupted before the next that is not. -/
noncomputable def interrupted (answers : Nat → Outcome)
    (hanswered : ∀ n, ∃ m ≥ n, answers m ≠ .eintr) (n : Nat) : Nat :=
  Nat.find (hanswered n) - n

variable {hanswered : ∀ n, ∃ m ≥ n, answers m ≠ .eintr}

theorem interrupted_succ {n : Nat} (h : answers n = .eintr) :
    interrupted answers hanswered (n + 1) < interrupted answers hanswered n := by
  classical
  unfold interrupted
  obtain ⟨hle, hother⟩ := Nat.find_spec (hanswered n)
  have hne : Nat.find (hanswered n) ≠ n := by
    intro heq
    rw [heq] at hother
    exact hother h
  have hnext := Nat.find_min' (hanswered (n + 1)) ⟨by omega, hother⟩
  omega

/-- What becomes smaller: the bytes to be sent or, where the call is made again, the interruptions
to come. -/
noncomputable def remaining (answers : Nat → Outcome)
    (hanswered : ∀ n, ∃ m ≥ n, answers m ≠ .eintr) (len : UInt32) (st : MsgState) : Nat ×ₗ Nat :=
  if st.returned = none then
    toLex (len.toNat - st.sent + 1, interrupted answers hanswered st.calls)
  else toLex (0, 0)

theorem remaining_lt {next : MsgState} (hgoing : st.returned = none)
    (hwithin : next.sent ≤ len.toNat) (hcalls : next.calls = st.calls + 1)
    (h : Advances answers st next) :
    remaining answers hanswered len next < remaining answers hanswered len st := by
  have hst : remaining answers hanswered len st =
      toLex (len.toNat - st.sent + 1, interrupted answers hanswered st.calls) := if_pos hgoing
  by_cases hnext : next.returned = none
  · have hremaining : remaining answers hanswered len next =
        toLex (len.toNat - next.sent + 1, interrupted answers hanswered next.calls) := if_pos hnext
    rw [hst, hremaining, Prod.Lex.toLex_lt_toLex]
    rcases h with ⟨hagain, hsame⟩ | hreturned | hmore
    · right
      rw [hsame, hcalls]
      exact ⟨rfl, interrupted_succ hagain⟩
    · exact absurd hnext hreturned
    · left
      dsimp only
      omega
  · have hremaining : remaining answers hanswered len next = toLex (0, 0) := if_neg hnext
    rw [hst, hremaining, Prod.Lex.toLex_lt_toLex]
    exact .inl (Nat.succ_pos _)

/-- `do_sendmsg` goes on where the kernel stopped: what has been accepted is always the front of the
iovecs, and it returns how much that is. -/
theorem sendmsg_resumes (answers : Nat → Outcome) (len : UInt32) (iovs : List Iovec)
    (hlen : (iovs.map (·.iovLen)).sum = len.toNat) (hpossible : Possible answers len iovs) :
    Resumes answers len iovs := by
  have htotal : (iovBytes iovs).length = len.toNat := by
    rw [← hlen, iovBytes, List.length_flatMap]
    simp [length_bytes]
  have hcut : ∀ st, (sendmsgLoop answers len).Reaches (.start iovs) st →
      Cut answers len iovs st := by
    rintro st ⟨n, hrun⟩
    obtain ⟨st', hrun', hcut, -⟩ := cut_of_reaches htotal hpossible n
    exact Except.ok.inj (hrun.symm.trans hrun') ▸ hcut
  refine ⟨fun n => ?_, fun st h => ⟨(hcut st h).wire, (hcut st h).within⟩, fun st r h hr => ?_,
    fun st r h hr hnone => ?_, fun hanswered => ?_⟩
  · obtain ⟨st, hrun, -⟩ := cut_of_reaches htotal hpossible n
    exact ⟨st, hrun⟩
  · obtain ⟨rfl, -⟩ := (hcut st h).result r hr
    exact ⟨rfl, (hcut st h).wire⟩
  · obtain ⟨rfl, hall | ⟨n, hn, hagain⟩⟩ := (hcut st h).result r hr
    · rw [hall]
    · exact absurd hagain (hnone n hn)
  · have hpass : ∀ st, Cut answers len iovs st ∧
        (sendmsgLoop answers len).Reaches (.start iovs) st →
        (sendmsgLoop answers len).going st = true → ∃ next,
          (sendmsgLoop answers len).body st = .ok next ∧ (Cut answers len iovs next ∧
            (sendmsgLoop answers len).Reaches (.start iovs) next) ∧
          remaining answers hanswered len next < remaining answers hanswered len st := by
      rintro st ⟨hst, hreaches⟩ hgoing
      have hnone : st.returned = none := Option.isNone_iff_eq_none.mp hgoing
      obtain ⟨next, hpass, hnext, hcalls, hadvances⟩ :=
        hst.step htotal hnone (hpossible st hreaches hnone)
      exact ⟨next, hpass, ⟨hnext, hreaches.step hgoing hpass⟩,
        remaining_lt hnone hnext.within hcalls hadvances⟩
    obtain ⟨st, hfinishes, -⟩ := Foundation.Loop.finishes_of_variant _ _ hpass
      ⟨Cut.start answers len iovs, .refl _ _⟩
    exact ⟨st, hfinishes⟩

/-- The kernel takes one byte, is interrupted, takes two and then the last one. -/
def interruptedOnce : Nat → Outcome
  | 0 => .took 1
  | 1 => .eintr
  | 2 => .took 2
  | 3 => .took 1
  | _ => .eagain

/-- Three iovecs, one of them empty. -/
def withEmpty : List Iovec := [⟨0, 10, 2⟩, ⟨1, 20, 0⟩, ⟨2, 30, 2⟩]

theorem sendmsg_resumes_interrupted :
    (sendmsgLoop interruptedOnce 4).passes 4 (.start withEmpty) =
        .ok ⟨[⟨2, 31, 1⟩], 4, 4, [(0, 10), (0, 11), (2, 30), (2, 31)], some 4⟩ ∧
      Resumes interruptedOnce 4 withEmpty := by
  refine ⟨rfl, sendmsg_resumes interruptedOnce 4 withEmpty rfl ?_⟩
  rintro st ⟨n, hrun⟩ hgoing
  match n with
  | 0 => cases hrun; exact ⟨by decide, by decide⟩
  | 1 => cases hrun; trivial
  | 2 => cases hrun; exact ⟨by decide, by decide⟩
  | 3 => cases hrun; exact ⟨by decide, by decide⟩
  | n + 4 =>
      change (sendmsgLoop interruptedOnce 4).passes n
        ⟨[⟨2, 31, 1⟩], 4, 4, [(0, 10), (0, 11), (2, 30), (2, 31)], some 4⟩ = .ok st at hrun
      rw [Foundation.Loop.passes_done n rfl] at hrun
      cases hrun
      exact nomatch hgoing

end RdmaCapsule.Network
