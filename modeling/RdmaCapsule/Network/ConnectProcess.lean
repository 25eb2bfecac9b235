import Mathlib
import RdmaCapsule.Core.ClientConnection
import RdmaCapsule.Network.FileEvents

/-! `Connection::process` over a TCP socket that does not block. Whether the socket is connected is
asked by calling `connect` again: once when the socket has just been made, and then at each
wake-up. -/
namespace RdmaCapsule.Network

open RdmaCapsule.Foundation RdmaCapsule.Core

def einprogress : Nat := 115
def ealready : Nat := 114
def eisconn : Nat := 106

/-- What a call of `connect` gives: 0, or -1 and `errno`. -/
inductive ConnectAnswer where
  | done
  | failed (errno : ℕ+)
  deriving DecidableEq

/-- The socket is connected. -/
def ConnectAnswer.Connected : ConnectAnswer → Prop
  | .done => True
  | .failed errno => (errno : Nat) = eisconn

instance : DecidablePred ConnectAnswer.Connected
  | .done => inferInstanceAs (Decidable True)
  | .failed errno => inferInstanceAs (Decidable ((errno : Nat) = eisconn))

/-- `NetHandler::reconnect`. -/
def reconnect (answer : ConnectAnswer) : Int :=
  match answer with
  | .done => 0
  | .failed errno =>
      if (errno : Nat) ≠ eisconn then
        if (errno : Nat) = einprogress ∨ (errno : Nat) = ealready ∨ (errno : Nat) = eagain then 1
        else -errno
      else 0

/-- What `PosixConnectedSocketImpl` remembers of its connection. -/
structure PosixSocket where
  connected : Bool
  deriving DecidableEq

def PosixSocket.isConnected (answer : ConnectAnswer) (s : PosixSocket) : Int × PosixSocket :=
  if s.connected then (1, s)
  else
    let r := reconnect answer
    if r = 0 then (1, { s with connected := true })
    else if r < 0 then (r, s)
    else (0, s)

/-- What the kernel gives while `process` runs once. -/
structure Kernel where
  /-- `errno` of a call before `connect` that fails. -/
  setup : Option ℕ+
  first : ConnectAnswer
  /-- The call of `connect` by `is_connected`. -/
  check : ConnectAnswer

/-- `PosixWorker::connect` with `nonblock`: the socket that it makes, or nothing if it fails. -/
def Kernel.connect (kernel : Kernel) : Option PosixSocket :=
  match kernel.setup with
  | some _ => none
  | none =>
      match kernel.first with
      | .done => some ⟨false⟩
      | .failed errno =>
          if (errno : Nat) = einprogress ∨ (errno : Nat) = eagain then some ⟨false⟩ else none

/-- The two handlers that `process` registers, by their addresses. -/
def readHandler : EventCallbackRef := some 0
def readCallbackHandler : EventCallbackRef := some 1

structure PosixConnection where
  state : ConnectionState
  cs : Option PosixSocket
  /-- The entry of the socket among the file events. -/
  event : FileEvent
  /-- How often `write_callback_handler` has been dispatched. -/
  dispatched : Nat

namespace PosixConnection

def new : PosixConnection := ⟨.none, none, .empty, 0⟩

def connect (c : PosixConnection) : PosixConnection := { c with state := .connecting }

/-- A socket that is there before is closed. -/
def process (kernel : Kernel) (c : PosixConnection) : Except ConnectionStop PosixConnection :=
  match c.state with
  | .none => .ok c
  | .closed => .ok c
  | .connecting =>
      match kernel.connect with
      | none => .ok { c with cs := none, event := .empty }
      | some cs =>
          let (r, cs) := cs.isConnected kernel.check
          if r ≤ 0 then
            let event := FileEvent.empty.create eventReadable readCallbackHandler
            .ok { c with
              cs := some cs
              event := event.create eventWritable readHandler
              state := .connectingRe }
          else .error .kassertNotConnected
  | .connectingRe =>
      match c.cs with
      | none => .error .nullSocket
      | some cs =>
          let (r, cs) := cs.isConnected kernel.check
          if r < 0 then .ok { c with cs := some cs }
          else if r = 0 then
            .ok { c with cs := some cs, event := c.event.create eventWritable readHandler }
          else .ok { c with
            cs := some cs
            state := .connectionEstablished
            event := c.event.delete eventWritable
            dispatched := c.dispatched + 1 }
  | .accepting =>
      match c.cs with
      | none => .error .nullSocket
      | some _ => .ok { c with
          event := c.event.create eventReadable readCallbackHandler
          state := .connectionEstablished
          dispatched := c.dispatched + 1 }
  | .connectionEstablished => .ok c

/-- The calls of `connect` that a run of `process` makes have said that the socket is connected. -/
def Says (c : PosixConnection) (kernel : Kernel) : Prop :=
  match c.state with
  | .connecting => kernel.connect.isSome ∧ (kernel.first = .done ∨ kernel.check.Connected)
  | .connectingRe => kernel.check.Connected
  | _ => False

instance (c : PosixConnection) (kernel : Kernel) : Decidable (c.Says kernel) := by
  unfold Says
  split <;> infer_instance

end PosixConnection

/-- A connection, and whether the kernel has said that its socket is connected. -/
structure Attempt where
  c : PosixConnection
  up : Bool

namespace Attempt

inductive Op where
  | connect
  | process (kernel : Kernel)

def step (a : Attempt) : Op → Except ConnectionStop Attempt
  | .connect => .ok { a with c := a.c.connect }
  | .process kernel => do
      let c ← a.c.process kernel
      pure ⟨c, a.up || decide (a.c.Says kernel)⟩

/-- `connect` is called once, and a socket that is connected at once is connected when it is asked
again. -/
def Enabled (a : Attempt) : Op → Prop
  | .connect => a.c.state = .none
  | .process kernel => kernel.first = .done → kernel.check.Connected

def machine : Machine Attempt Op ConnectionStop where
  start a := a = ⟨.new, false⟩
  enabled := Enabled
  step := step

/-- `write_callback` has been dispatched once if the socket is known to be connected, and not at all
before. -/
def Exact (a : Attempt) : Prop := a.c.dispatched = if a.up then 1 else 0

/-- The socket that `process` has just made is not connected when it is first asked. -/
def NotEarly (a : Attempt) : Op → Prop
  | .process kernel =>
      a.c.state = .connecting → kernel.connect.isSome → ¬ kernel.check.Connected
  | _ => True

/-- What holds between the wake-ups. -/
structure Inv (a : Attempt) : Prop where
  exact : a.Exact
  up : a.up = true ↔ a.c.state = .connectionEstablished
  states : a.c.state ≠ .accepting
  socket : a.c.state = .connectingRe → a.c.cs = some ⟨false⟩ ∧
    a.c.event = ⟨eventReadable ||| eventWritable, readCallbackHandler, readHandler⟩

variable {a a' : Attempt} {kernel : Kernel} {answer : ConnectAnswer}

theorem reconnect_eq_zero_iff : reconnect answer = 0 ↔ answer.Connected := by
  cases answer with
  | done => exact iff_of_true rfl trivial
  | failed errno =>
      have hpos := errno.pos
      unfold reconnect ConnectAnswer.Connected
      dsimp only
      split
      · rename_i hne
        refine iff_of_false ?_ hne
        split <;> omega
      · rename_i heq
        exact iff_of_true rfl (not_not.mp heq)

theorem isConnected_of_connected (h : answer.Connected) :
    PosixSocket.isConnected answer ⟨false⟩ = (1, ⟨true⟩) := by
  unfold PosixSocket.isConnected
  dsimp only
  rw [if_neg (by decide), if_pos (reconnect_eq_zero_iff.mpr h)]

theorem isConnected_of_not_connected (h : ¬ answer.Connected) :
    ∃ r ≤ 0, PosixSocket.isConnected answer ⟨false⟩ = (r, ⟨false⟩) := by
  unfold PosixSocket.isConnected
  dsimp only
  rw [if_neg (by decide), if_neg (fun hzero => h (reconnect_eq_zero_iff.mp hzero))]
  split
  · rename_i hneg
    exact ⟨_, hneg.le, rfl⟩
  · exact ⟨0, le_rfl, rfl⟩

theorem connect_eq_some {cs : PosixSocket} (h : kernel.connect = some cs) : cs = ⟨false⟩ := by
  unfold Kernel.connect at h
  split at h
  · cases h
  split at h
  · exact (Option.some.inj h).symm
  split at h
  · exact (Option.some.inj h).symm
  · cases h

theorem step_process {c : PosixConnection} (h : a.c.process kernel = .ok c) :
    a.step (.process kernel) = .ok ⟨c, a.up || decide (a.c.Says kernel)⟩ := by
  unfold step
  dsimp only
  rw [h]
  rfl

theorem Inv.down (hinv : a.Inv) (hstate : a.c.state ≠ .connectionEstablished) : a.up = false := by
  by_contra hup
  exact hstate (hinv.up.mp (by simpa using hup))

/-- Nothing is said of the socket, and nothing is dispatched. -/
theorem Inv.waits {c : PosixConnection} (hinv : a.Inv) (hdown : a.up = false)
    (hstate : c.state = .connecting ∨ c.state = .connectingRe)
    (hdispatched : c.dispatched = a.c.dispatched)
    (hsocket : c.state = .connectingRe → c.cs = some ⟨false⟩ ∧
      c.event = ⟨eventReadable ||| eventWritable, readCallbackHandler, readHandler⟩) :
    Inv ⟨c, false⟩ := by
  constructor
  · have hexact := hinv.exact
    unfold Exact at hexact ⊢
    rw [hdispatched, hexact, hdown]
  · refine iff_of_false (by simp) fun hestablished => ?_
    rcases hstate with hstate | hstate <;> cases hstate.symm.trans hestablished
  · intro haccepting
    rcases hstate with hstate | hstate <;> cases hstate.symm.trans haccepting
  · exact hsocket

/-- A new socket that is found connected stops the process; another is waited for. -/
theorem process_connecting (hinv : a.Inv) (hstate : a.c.state = .connecting)
    (henabled : a.Enabled (.process kernel)) :
    (a.NotEarly (.process kernel) ∧ ∃ a', a.step (.process kernel) = .ok a' ∧ a'.Inv) ∨
      ¬ a.NotEarly (.process kernel) ∧
        a.step (.process kernel) = .error .kassertNotConnected := by
  have hdown : a.up = false := hinv.down (by rw [hstate]; decide)
  cases hconnect : kernel.connect with
  | none =>
      have htold : ¬ a.c.Says kernel := by simp [PosixConnection.Says, hstate, hconnect]
      have hrun : a.c.process kernel = .ok { a.c with cs := none, event := .empty } := by
        simp only [PosixConnection.process, hstate, hconnect]
      refine .inl ⟨fun _ hsome => ?_, _, step_process hrun, ?_⟩
      · rw [hconnect] at hsome
        cases hsome
      · rw [hdown, decide_eq_false htold]
        exact hinv.waits hdown (.inl hstate) rfl fun hwaiting => nomatch hstate.symm.trans hwaiting
  | some cs =>
      cases connect_eq_some hconnect
      by_cases hcheck : kernel.check.Connected
      · refine .inr ⟨fun hearly => hearly hstate (by rw [hconnect]; rfl) hcheck, ?_⟩
        unfold step PosixConnection.process
        simp only [hstate, hconnect, isConnected_of_connected hcheck]
        rfl
      · obtain ⟨r, hr, hasked⟩ := isConnected_of_not_connected hcheck
        have htold : ¬ a.c.Says kernel := by
          simp only [PosixConnection.Says, hstate]
          exact fun h => h.2.elim (fun hdone => hcheck (henabled hdone)) hcheck
        have hrun : a.c.process kernel = .ok { a.c with
            cs := some ⟨false⟩
            event := (FileEvent.empty.create eventReadable readCallbackHandler).create eventWritable
              readHandler
            state := .connectingRe } := by
          simp only [PosixConnection.process, hstate, hconnect, hasked]
          exact if_pos hr
        refine .inl ⟨fun _ _ => hcheck, _, step_process hrun, ?_⟩
        rw [hdown, decide_eq_false htold]
        exact hinv.waits hdown (.inr rfl) rfl fun _ => ⟨rfl, rfl⟩

/-- A socket that is waited for is connected now, or it is waited for again. -/
theorem process_connectingRe (hinv : a.Inv) (hstate : a.c.state = .connectingRe) :
    ∃ a', a.step (.process kernel) = .ok a' ∧ a'.Inv := by
  have hdown : a.up = false := hinv.down (by rw [hstate]; decide)
  obtain ⟨hcs, hevent⟩ := hinv.socket hstate
  have htold : a.c.Says kernel ↔ kernel.check.Connected := by
    simp only [PosixConnection.Says, hstate]
  by_cases hcheck : kernel.check.Connected
  · have hrun : a.c.process kernel = .ok { a.c with
        cs := some ⟨true⟩
        state := .connectionEstablished
        event := a.c.event.delete eventWritable
        dispatched := a.c.dispatched + 1 } := by
      simp only [PosixConnection.process, hstate, hcs, isConnected_of_connected hcheck]
      rfl
    refine ⟨_, step_process hrun, ?_⟩
    have hexact := hinv.exact
    rw [Exact, hdown] at hexact
    rw [hdown, decide_eq_true (htold.mpr hcheck)]
    refine ⟨?_, iff_of_true rfl rfl, fun h => (nomatch h), fun h => nomatch h⟩
    show a.c.dispatched + 1 = _
    rw [hexact]
    rfl
  · obtain ⟨r, hr, hasked⟩ := isConnected_of_not_connected hcheck
    have hsame : a.c.event.create eventWritable readHandler = a.c.event := by
      rw [hevent]
      rfl
    have hself : { a.c with cs := some ⟨false⟩ } = a.c := by rw [← hcs]
    have hrun : a.c.process kernel = .ok a.c := by
      simp only [PosixConnection.process, hstate, hcs, hasked, hsame]
      split
      · rw [← hstate, hself]
      · rw [if_pos (by omega), ← hstate, hself]
    refine ⟨_, step_process hrun, ?_⟩
    rw [hdown, decide_eq_false (fun h => hcheck (htold.mp h))]
    exact hinv.waits hdown (.inr hstate) rfl fun _ => ⟨hcs, hevent⟩

/-- One step: the only way to go wrong is to find a new socket connected. -/
theorem step_exact_iff (hinv : a.Inv) {op : Op} (henabled : a.Enabled op) :
    (a.NotEarly op ∧ ∃ a', a.step op = .ok a' ∧ a'.Inv) ∨
      ¬ a.NotEarly op ∧ a.step op = .error .kassertNotConnected := by
  cases op with
  | connect =>
      have hstate : a.c.state = .none := henabled
      have hdown : a.up = false := hinv.down (by rw [hstate]; decide)
      refine .inl ⟨trivial, ⟨a.c.connect, a.up⟩, rfl, ?_⟩
      rw [hdown]
      exact hinv.waits hdown (.inl rfl) rfl fun h => nomatch h
  | process kernel =>
      cases hstate : a.c.state with
      | connecting => exact process_connecting hinv hstate henabled
      | connectingRe =>
          refine .inl ⟨fun h => ?_, process_connectingRe hinv hstate⟩
          cases hstate.symm.trans h
      | accepting => exact absurd hstate hinv.states
      | _ =>
          refine .inl ⟨fun h => ?_, a, ?_, hinv⟩
          · cases hstate.symm.trans h
          · have hrun : a.c.process kernel = .ok a.c := by
              simp only [PosixConnection.process, hstate]
            have htold : ¬ a.c.Says kernel := by simp [PosixConnection.Says, hstate]
            rw [step_process hrun, decide_eq_false htold, Bool.or_false]

theorem inv_of_reachable (h : (machine.restrict NotEarly).Reachable a) : a.Inv := by
  have hstart (first : Attempt) (hfirst : machine.start first) : first.Inv := by
    cases hfirst
    exact ⟨rfl, by decide, by decide, fun h => nomatch h⟩
  refine h.invariant hstart fun before op after _ hinv henabled hstep => ?_
  rcases step_exact_iff hinv henabled.1 with ⟨-, a', hrun, hinv'⟩ | ⟨hearly, -⟩
  · cases hrun.symm.trans hstep
    exact hinv'
  · exact absurd henabled.2 hearly

/-- In every run in which no new socket is found connected when it is first asked, `write_callback`
is dispatched at the wake-up that finds the socket connected and at no other. There, and only there,
a wake-up that finds a new socket connected stops the process. -/
theorem connect_process_exact_iff (a : Attempt) (h : (machine.restrict NotEarly).Reachable a) :
    a.Exact ∧ ∀ op, a.Enabled op → ((∃ a', a.step op = .ok a' ∧ a'.Exact) ↔ a.NotEarly op) := by
  have hinv := inv_of_reachable h
  refine ⟨hinv.exact, fun op henabled => ?_⟩
  rcases step_exact_iff hinv henabled with ⟨hlate, a', hrun, hinv'⟩ | ⟨hearly, hrun⟩
  · exact iff_of_true ⟨a', hrun, hinv'.exact⟩ hlate
  · refine iff_of_false ?_ hearly
    rintro ⟨a', hok, -⟩
    cases hrun.symm.trans hok

/-- The kernel is still connecting. -/
def inProgress : ConnectAnswer := .failed 115

theorem connect_process_exact_iff_late :
    ∃ a, (machine.restrict NotEarly).Reachable a ∧ a.up = true ∧ a.c.dispatched = 1 ∧ a.Exact := by
  have hbusy : inProgress ≠ .done := by decide
  have hnotYet : ¬ inProgress.Connected := by decide
  have hstart : (machine.restrict NotEarly).Reachable ⟨.new, false⟩ := .start rfl
  have hconnect := hstart.next .connect ⟨rfl, trivial⟩ rfl
  have hmade := hconnect.next (.process ⟨none, inProgress, inProgress⟩)
    ⟨fun h => absurd h hbusy, fun _ _ => hnotYet⟩ rfl
  have hwaited := hmade.next (.process ⟨none, inProgress, inProgress⟩)
    ⟨fun h => absurd h hbusy, fun h => nomatch h⟩ rfl
  have hdone := hwaited.next (.process ⟨none, inProgress, .done⟩)
    ⟨fun _ => trivial, fun h => nomatch h⟩ rfl
  exact ⟨_, hdone, rfl, rfl, (connect_process_exact_iff _ hdone).1⟩

/-- A connection that is complete when the socket is first asked stops the process. -/
theorem connect_process_not_exact :
    ∃ a, machine.Reachable a ∧ a.Enabled (.process ⟨none, inProgress, .done⟩) ∧
      a.step (.process ⟨none, inProgress, .done⟩) = .error .kassertNotConnected := by
  have hstart : machine.Reachable ⟨.new, false⟩ := .start rfl
  have hconnect := hstart.next .connect rfl rfl
  exact ⟨_, hconnect, fun _ => trivial, rfl⟩

end Attempt

end RdmaCapsule.Network
