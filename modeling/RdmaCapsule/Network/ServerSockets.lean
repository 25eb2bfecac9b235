import RdmaCapsule.Network.Sockets

/-! A `Server` as it uses its sockets: each `Processor` has a handle to listen on and one more while
it accepts, and each `Connection` has a handle. What the server does keeps every descriptor in
reach. -/
namespace RdmaCapsule.Network

open RdmaCapsule.Foundation RdmaCapsule.Core

structure ServerConfig where
  kind : WorkerKind
  bindRetryCount : UInt8
  listenPort : UInt16
  /-- `m_bind_before_connect_`, and there is an address to bind to. -/
  bindBeforeConnect : Bool

inductive ServerFault where
  | socket (fault : SocketFault)
  | bind (stop : BindStop)
  /-- `lock` is taken and nobody lets go of it. -/
  | deadlock
  | kassertFd
  | kassertNotConnected
  | noConnection
  deriving DecidableEq

/-- `none` is `cli_socket`, the others are the `cs` of the connections. -/
abbrev ConnectedHandle := Option Nat

structure ServerState (n : Nat) where
  sockets : Sockets ConnectedHandle (Fin n)
  isStarted : Fin n → Bool
  connCount : Int32
  /-- The states of the connections, in the order in which they were made. -/
  conns : List ConnectionState
  isReady : Bool
  /-- A call has returned and left `lock` taken. -/
  locked : Bool

namespace Processor

variable {n : Nat}

/-- The loop of `bind`, with the attempts that are left. -/
def bindSockets (config : ServerConfig) (attempts : Nat → ListenCalls) (p : Fin n) :
    Nat → Nat → Int → EntityAddr → Sockets ConnectedHandle (Fin n) →
    Except ServerFault (Int × Sockets ConnectedHandle (Fin n))
  | 0, _, r, _, sockets => .ok (r, sockets)
  | left + 1, made, _, boundAddr, sockets => do
      let listenAddr ← (boundAddr.ensurePort config.listenPort).mapError .bind
      let (r, sockets) ← (sockets.listen config.kind listenAddr (attempts made) p).mapError .socket
      if r < 0 then bindSockets config attempts p left (made + 1) r listenAddr sockets
      else if r = 0 then pure (r, sockets)
      else bindSockets config attempts p left (made + 1) r listenAddr sockets

def bindAll (config : ServerConfig) (bindAddr : EntityAddr) (attempts : Nat → ListenCalls)
    (p : Fin n) (sockets : Sockets ConnectedHandle (Fin n)) :
    Except ServerFault (Int × Sockets ConnectedHandle (Fin n)) := do
  let (r, sockets) ←
    bindSockets config attempts p config.bindRetryCount.toNat 0 (-1) bindAddr sockets
  if r < 0 then
    match sockets.listening p with
    | none => .error (.bind .emptyListenSocket)
    | some _ => do
        let sockets ← (sockets.abortAccept p).mapError .socket
        pure (r, sockets)
  else pure (0, sockets)

end Processor

/-- `fd` of the socket; that of `RDMAConnectedSocketImpl` is `notify_fd`. -/
def ConnectedSocketImpl.fd : ConnectedSocketImpl → Option Nat
  | .posix fd => some fd
  | .rdma csi => csi.notifyFd

def ebusy : Int := 16

inductive ServerOp (n : Nat) where
  | start
  | bind (bindAddr : EntityAddr) (attempts : Nat → ListenCalls)
  | stop (p : Fin n)
  | accept (p : Fin n) (calls : AcceptCalls)
  | createConnect
  /-- `Connection::connect` of a connection that is there. -/
  | connect (c : Nat)
  /-- `Connection::process`, with what `is_connected` returns. -/
  | process (c : Nat) (calls : ConnectCalls) (isConnected : Int)
  | openOther (fd : Nat)
  | closeOther (fd : Nat)

namespace ServerState

variable {n : Nat}

/-- `stack->start()` and `stack->ready()`. -/
def start (s : ServerState n) : ServerState n := { s with isReady := true }

/-- `processors[conn_count % processors.size()]`; the count is converted to `size_t`. -/
def processor [NeZero n] (s : ServerState n) : Fin n :=
  Fin.ofNat n s.connCount.toInt64.toUInt64.toNat

/-- A stack that is not ready makes `bind` return while it holds the lock. -/
def bind [NeZero n] (config : ServerConfig) (bindAddr : EntityAddr) (attempts : Nat → ListenCalls)
    (s : ServerState n) : Except ServerFault (Int × ServerState n) :=
  if s.locked then .error .deadlock
  else if s.isReady = false then .ok (0, { s with locked := true })
  else
    let p := s.processor
    if s.isStarted p then .ok (-ebusy, s)
    else do
      let (r, sockets) ← Processor.bindAll config bindAddr attempts p s.sockets
      if r ≠ 0 then pure (r, { s with sockets })
      else pure (0, { s with
        sockets
        isStarted := Function.update s.isStarted p true
        connCount := s.connCount + 1 })

def stop (s : ServerState n) (p : Fin n) : Except ServerFault (ServerState n) := do
  let sockets ← match s.sockets.listening p with
    | none => pure s.sockets
    | some _ => (s.sockets.abortAccept p).mapError .socket
  pure { s with sockets, isStarted := Function.update s.isStarted p false }

/-- `Server::accept`, with the connection that it makes. -/
def acceptSocket (s : ServerState n) : Except ServerFault (ServerState n) :=
  if s.locked then .error .deadlock
  else
    match s.sockets.connected none with
    | none => .error (.socket .nullSocket)
    | some csi =>
        if csi.fd.isSome then do
          let sockets ← (s.sockets.move (some s.conns.length) none).mapError .socket
          pure { s with sockets, conns := s.conns ++ [.accepting] }
        else .error .kassertFd

/-- One pass of the loop in `Processor::accept`. -/
def accept (config : ServerConfig) (calls : AcceptCalls) (s : ServerState n) (p : Fin n) :
    Except ServerFault (ServerState n) := do
  let (r, sockets) ← (s.sockets.accept config.kind calls p none).mapError .socket
  let s ← if r = 0 then acceptSocket { s with sockets } else pure { s with sockets }
  let sockets ← (s.sockets.destroy none).mapError .socket
  pure { s with sockets }

def createConnect (s : ServerState n) : Except ServerFault (ServerState n) :=
  if s.locked then .error .deadlock
  else .ok { s with conns := s.conns ++ [.connecting] }

def setState (s : ServerState n) (c : Nat) (state : ConnectionState) : ServerState n :=
  { s with conns := s.conns.set c state }

/-- The handle of a connection that is about to connect. -/
def closeExisting (s : ServerState n) (c : Nat) :
    Except SocketFault (Sockets ConnectedHandle (Fin n)) :=
  match s.sockets.connected (some c) with
  | none => .ok s.sockets
  | some _ => s.sockets.close (some c)

def process (config : ServerConfig) (calls : ConnectCalls) (isConnected : Int)
    (s : ServerState n) (c : Nat) : Except ServerFault (ServerState n) :=
  match s.conns[c]? with
  | none => .error .noConnection
  | some .none | some .closed | some .connectionEstablished => .ok s
  | some .connecting => do
      let sockets ← (s.closeExisting c).mapError .socket
      let (r, sockets) ←
        (sockets.connect config.kind ⟨true, config.bindBeforeConnect⟩ calls (some c)).mapError
          .socket
      if r < 0 then pure { s with sockets }
      else if isConnected ≤ 0 then pure ({ s with sockets }.setState c .connectingRe)
      else .error .kassertNotConnected
  | some .connectingRe =>
      match s.sockets.connected (some c) with
      | none => .error (.socket .nullSocket)
      | some _ =>
          if isConnected ≤ 0 then .ok s else .ok (s.setState c .connectionEstablished)
  | some .accepting =>
      match s.sockets.connected (some c) with
      | none => .error (.socket .nullSocket)
      | some _ => .ok (s.setState c .connectionEstablished)

def others (s : ServerState n)
    (sockets : Except SocketFault (Sockets ConnectedHandle (Fin n))) :
    Except ServerFault (ServerState n) := do
  let sockets ← sockets.mapError .socket
  pure { s with sockets }

def step [NeZero n] (config : ServerConfig) (s : ServerState n) :
    ServerOp n → Except ServerFault (ServerState n)
  | .start => .ok s.start
  | .bind bindAddr attempts => do
      let (_, s) ← s.bind config bindAddr attempts
      pure s
  | .stop p => s.stop p
  | .accept p calls => s.accept config calls p
  | .createConnect => s.createConnect
  | .connect c =>
      if c < s.conns.length then .ok (s.setState c .connecting) else .error .noConnection
  | .process c calls isConnected => s.process config calls isConnected c
  | .openOther fd => s.others (s.sockets.openOther fd)
  | .closeOther fd => s.others (s.sockets.closeOther fd)

/-- A processor accepts while the event of its socket is there. -/
def Enabled (s : ServerState n) : ServerOp n → Prop
  | .accept p _ => s.isStarted p = true
  | .closeOther fd => fd ∈ s.sockets.others
  | _ => True

/-- `conn_count` can have any value. -/
def Start (s : ServerState n) : Prop :=
  s.sockets.Start ∧ (∀ p, s.isStarted p = false) ∧ s.conns = [] ∧ s.locked = false

def machine [NeZero n] (config : ServerConfig) :
    Machine (ServerState n) (ServerOp n) ServerFault where
  start := Start
  enabled := Enabled
  step := step config

end ServerState

/-- The server closes nothing that is not open and uses no handle that is empty. -/
def ServerFault.Harmless (fault : ServerFault) : Prop :=
  fault ≠ .socket .badDescriptor ∧ fault ≠ .socket .nullSocket

/-- A connection that has a socket. -/
def HasSocket : ConnectionState → Prop
  | .connectingRe | .accepting | .connectionEstablished => True
  | _ => False

theorem harmless_socket {fault : SocketFault} (h : fault.Harmless) :
    (ServerFault.socket fault).Harmless := by
  rcases h with rfl | rfl
  · exact ⟨nofun, nofun⟩
  · exact ⟨nofun, nofun⟩

theorem ends_socket {α : Type} {run : Except SocketFault α} {post : α → Prop}
    (h : Ends run post SocketFault.Harmless) :
    Ends (run.mapError .socket) post ServerFault.Harmless :=
  h.mapFault _ fun _ => harmless_socket

variable {n : Nat} {config : ServerConfig} {attempts : Nat → ListenCalls} {p : Fin n}
  {sockets : Sockets ConnectedHandle (Fin n)}

namespace Processor

/-- What `bind` does to the sockets: it fails and leaves them, or it makes the one to listen on. -/
structure Bound (p : Fin n) (sockets sockets' : Sockets ConnectedHandle (Fin n)) (r : Int) :
    Prop where
  accounted : sockets'.Accounted []
  connected : sockets'.connected = sockets.connected
  lost : sockets'.lost = sockets.lost
  listening : (r < 0 ∧ sockets'.listening = sockets.listening) ∨ (r = 0 ∧ ∃ ssi,
    sockets'.listening = Function.update sockets.listening p (some ssi))

theorem bindSockets_ends (hnone : sockets.listening p = none) (left made : Nat) {r : Int}
    (hr : r < 0) (boundAddr : EntityAddr) (h : sockets.Accounted []) :
    Ends (bindSockets config attempts p left made r boundAddr sockets)
      (fun result => Bound p sockets result.2 result.1) ServerFault.Harmless := by
  induction left generalizing made r boundAddr with
  | zero => exact ⟨h, rfl, rfl, .inl ⟨hr, rfl⟩⟩
  | succ left ih =>
      have hport : Ends ((boundAddr.ensurePort config.listenPort).mapError ServerFault.bind)
          (fun _ => True) ServerFault.Harmless :=
        (ends_true _).mapFault _ fun _ _ => ⟨nofun, nofun⟩
      apply hport.bind
      intro listenAddr _
      apply (ends_socket
        (Sockets.listen_sockets config.kind listenAddr (attempts made) h p)).bind
      rintro ⟨r', sockets'⟩ ⟨hs', hconnected, hcases⟩
      rcases hcases with ⟨fd, hzero, hlistening, hlost⟩ | ⟨hnegative, hsame⟩
      · dsimp only at hzero
        subst hzero
        refine ⟨hs', hconnected, ?_, .inr ⟨rfl, _, hlistening⟩⟩
        simpa [Sockets.listeningFds, hnone] using hlost
      · dsimp only at hnegative hsame ⊢
        subst hsame
        rw [if_pos hnegative]
        exact ih (made + 1) hnegative listenAddr

theorem bindAll_ends (bindAddr : EntityAddr) (hnone : sockets.listening p = none)
    (h : sockets.Accounted []) :
    Ends (bindAll config bindAddr attempts p sockets)
      (fun result => result.1 = 0 ∧ Bound p sockets result.2 result.1)
      ServerFault.Harmless := by
  have hneg : (-1 : Int) < 0 := by decide
  apply (bindSockets_ends hnone config.bindRetryCount.toNat 0 hneg bindAddr h).bind
  rintro ⟨r, sockets'⟩ hbound
  dsimp only
  rcases hbound.listening with ⟨hr, hsame⟩ | ⟨hr, hmade⟩
  · rw [if_pos hr, hsame, hnone]
    exact ⟨nofun, nofun⟩
  · dsimp only at hr
    subst hr
    exact ⟨rfl, hbound⟩

/-- With their descriptors the attempts come out as they do without. -/
theorem bindSockets_agrees (hnone : sockets.listening p = none) {left made : Nat} {r r' : Int}
    {boundAddr : EntityAddr} {sockets' : Sockets ConnectedHandle (Fin n)}
    (h : bindSockets config attempts p left made r boundAddr sockets = .ok (r', sockets')) :
    ∃ b, bindLoop config.kind config.listenPort attempts left ⟨r, boundAddr, none, made⟩ = .ok b ∧
      b.r = r' ∧ sockets'.listening p = b.listenSocket := by
  induction left generalizing made r boundAddr sockets with
  | zero =>
      cases h
      exact ⟨_, rfl, rfl, hnone⟩
  | succ left ih =>
      unfold bindSockets at h
      obtain ⟨listenAddr, hport, h⟩ := bind_eq_ok h
      obtain ⟨⟨r₁, sockets₁⟩, hlisten, h⟩ := bind_eq_ok h
      have hagree := Sockets.listen_agrees hnone (ok_of_mapError hlisten)
      rw [bindLoop, ok_of_mapError hport, ok_bind]
      dsimp only at h ⊢
      rw [hagree]
      dsimp only
      cases houtcome : (attempts made).outcome with
      | error errno =>
          rw [listen_of_error houtcome] at hagree
          obtain ⟨hr, hnone₁⟩ := Prod.mk.inj hagree
          have hnegative : r₁ < 0 := hr ▸ neg_errno errno
          rw [if_pos hnegative] at h ⊢
          rw [← hnone₁]
          exact ih hnone₁.symm h
      | ok fd =>
          rw [listen_of_ok houtcome] at hagree
          obtain ⟨hr, -⟩ := Prod.mk.inj hagree
          subst hr
          cases h
          exact ⟨_, rfl, rfl, rfl⟩

/-- `bind` with its descriptors returns what it returns without, and holds the same socket. -/
theorem bindAll_agrees {bindAddr : EntityAddr} {r : Int}
    {sockets' : Sockets ConnectedHandle (Fin n)} (hnone : sockets.listening p = none)
    (h : bindAll config bindAddr attempts p sockets = .ok (r, sockets')) :
    ∃ b, bind config.kind config.bindRetryCount config.listenPort bindAddr attempts = .ok b ∧
      b.r = r ∧ sockets'.listening p = b.listenSocket := by
  obtain ⟨⟨r₁, sockets₁⟩, hloop, h⟩ := bind_eq_ok h
  obtain ⟨b, hb, rfl, hlistening⟩ := bindSockets_agrees hnone hloop
  unfold bind
  rw [hb, ok_bind]
  dsimp only at h ⊢
  split at h
  · rename_i hr
    rw [hlistening] at h
    cases hsocket : b.listenSocket with
    | none =>
        rw [hsocket] at h
        exact nomatch h
    | some ssi =>
        rw [hsocket] at h
        obtain ⟨sockets₂, habort, h⟩ := bind_eq_ok h
        cases h
        refine ⟨{ b with listenSocket := none }, if_pos hr, rfl, ?_⟩
        have habort := ok_of_mapError habort
        unfold Sockets.abortAccept Sockets.destroyServer at habort
        rw [hlistening, hsocket] at habort
        obtain ⟨table, -, habort⟩ := bind_eq_ok habort
        cases habort
        exact Function.update_self ..
  · rename_i hr
    cases h
    exact ⟨{ b with r := 0 }, if_neg hr, rfl, hlistening⟩

end Processor

namespace ServerState

variable {s s' : ServerState n}

/-- What holds of a server between its steps. -/
structure Kept (s : ServerState n) : Prop where
  accounted : s.sockets.Accounted []
  lost : s.sockets.lost = []
  cliSocket : s.sockets.connected none = none
  listening : ∀ p, s.isStarted p = true ↔ (s.sockets.listening p).isSome
  made : ∀ c, (s.sockets.connected (some c)).isSome → c < s.conns.length
  present : ∀ c state, s.conns[c]? = some state → HasSocket state →
    (s.sockets.connected (some c)).isSome

theorem Kept.start (h : s.Start) : s.Kept := by
  obtain ⟨hsockets, hstopped, hconns, -⟩ := h
  have hsockets' := hsockets
  obtain ⟨-, -, hconnected, hlistening, hlost⟩ := hsockets'
  refine ⟨.start hsockets, hlost, hconnected none, ?_, ?_, ?_⟩
  · intro p
    simp [hstopped, hlistening]
  · intro c hc
    rw [hconnected] at hc
    exact nomatch hc
  · intro c state hc
    rw [hconns] at hc
    exact nomatch hc

theorem Kept.bind [NeZero n] (h : s.Kept) (bindAddr : EntityAddr)
    (attempts : Nat → ListenCalls) :
    Ends (s.bind config bindAddr attempts) (fun result => result.2.Kept)
      ServerFault.Harmless := by
  unfold ServerState.bind
  split
  · exact ⟨nofun, nofun⟩
  · split
    · exact ⟨h.accounted, h.lost, h.cliSocket, h.listening, h.made, h.present⟩
    · dsimp only
      split
      · exact h
      · rename_i hstopped
        have hnone : s.sockets.listening s.processor = none := by
          by_contra hsome
          exact hstopped ((h.listening s.processor).mpr (Option.isSome_iff_ne_none.mpr hsome))
        apply (Processor.bindAll_ends bindAddr hnone h.accounted).bind
        rintro ⟨r, sockets⟩ ⟨hr, hbound⟩
        dsimp only at hr
        subst hr
        rcases hbound.listening with ⟨hr, -⟩ | ⟨-, ssi, hlistening⟩
        · exact absurd hr (lt_irrefl _)
        refine ⟨hbound.accounted, ?_, ?_, ?_, ?_, ?_⟩
        · exact hbound.lost.trans h.lost
        · rw [hbound.connected]
          exact h.cliSocket
        · intro p
          dsimp only
          rw [hlistening]
          by_cases hp : p = s.processor
          · subst hp
            simp
          · rw [Function.update_of_ne hp, Function.update_of_ne hp]
            exact h.listening p
        · intro c
          rw [hbound.connected]
          exact h.made c
        · intro c state
          rw [hbound.connected]
          exact h.present c state

/-- A connection changes its state, and perhaps what is in its handle. -/
theorem Kept.put (h : s.Kept) {sockets : Sockets ConnectedHandle (Fin n)} {c : Nat}
    (state : ConnectionState) (csi : Option ConnectedSocketImpl) (hc : c < s.conns.length)
    (haccounted : sockets.Accounted []) (hlost : sockets.lost = s.sockets.lost)
    (hlistening : sockets.listening = s.sockets.listening)
    (hconnected : sockets.connected = Function.update s.sockets.connected (some c) csi)
    (hstate : HasSocket state → csi.isSome) : ({ s with sockets }.setState c state).Kept where
  accounted := haccounted
  lost := hlost.trans h.lost
  cliSocket := by
    change sockets.connected none = none
    rw [hconnected, Function.update_of_ne (by simp)]
    exact h.cliSocket
  listening p := by
    change _ ↔ (sockets.listening p).isSome
    rw [hlistening]
    exact h.listening p
  made c' hc' := by
    change c' < (s.conns.set c state).length
    rw [List.length_set]
    change (sockets.connected (some c')).isSome at hc'
    by_cases hsame : c' = c
    · exact hsame ▸ hc
    · rw [hconnected, Function.update_of_ne (by simpa using hsame)] at hc'
      exact h.made c' hc'
  present c' state' hc' hhas := by
    change (s.conns.set c state)[c']? = some state' at hc'
    change (sockets.connected (some c')).isSome
    rw [hconnected]
    by_cases hsame : c' = c
    · subst hsame
      rw [List.getElem?_set_self hc] at hc'
      cases hc'
      rw [Function.update_self]
      exact hstate hhas
    · rw [List.getElem?_set_ne (Ne.symm hsame)] at hc'
      rw [Function.update_of_ne (by simpa using hsame)]
      exact h.present c' state' hc' hhas

/-- A connection is added. -/
theorem Kept.append (h : s.Kept) {sockets : Sockets ConnectedHandle (Fin n)}
    (state : ConnectionState) (csi : Option ConnectedSocketImpl)
    (haccounted : sockets.Accounted []) (hlost : sockets.lost = s.sockets.lost)
    (hlistening : sockets.listening = s.sockets.listening)
    (hconnected : sockets.connected =
      Function.update s.sockets.connected (some s.conns.length) csi)
    (hstate : HasSocket state → csi.isSome) :
    { s with sockets, conns := s.conns ++ [state] }.Kept where
  accounted := haccounted
  lost := hlost.trans h.lost
  cliSocket := by
    change sockets.connected none = none
    rw [hconnected, Function.update_of_ne (by simp)]
    exact h.cliSocket
  listening p := by
    change _ ↔ (sockets.listening p).isSome
    rw [hlistening]
    exact h.listening p
  made c hc := by
    rw [List.length_append]
    change (sockets.connected (some c)).isSome at hc
    by_cases hsame : c = s.conns.length
    · subst hsame
      exact Nat.lt_succ_self _
    · rw [hconnected, Function.update_of_ne (by simpa using hsame)] at hc
      exact Nat.lt_succ_of_lt (h.made c hc)
  present c state' hc hhas := by
    change (s.conns ++ [state])[c]? = some state' at hc
    change (sockets.connected (some c)).isSome
    rw [hconnected]
    rcases Nat.lt_trichotomy c s.conns.length with hlt | rfl | hgt
    · rw [List.getElem?_append_left hlt] at hc
      rw [Function.update_of_ne (by simpa using Nat.ne_of_lt hlt)]
      exact h.present c state' hc hhas
    · rw [List.getElem?_concat_length] at hc
      cases hc
      rw [Function.update_self]
      exact hstate hhas
    · rw [List.getElem?_eq_none (by simpa using hgt)] at hc
      exact nomatch hc

theorem Kept.unmade (h : s.Kept) : s.sockets.connected (some s.conns.length) = none := by
  by_contra hsome
  have hlt := h.made s.conns.length (Option.isSome_iff_ne_none.mpr hsome)
  exact absurd hlt (lt_irrefl _)

theorem Kept.congr (h : s.Kept) {sockets : Sockets ConnectedHandle (Fin n)}
    (haccounted : sockets.Accounted []) (hlost : sockets.lost = s.sockets.lost)
    (hconnected : sockets.connected = s.sockets.connected)
    (hlistening : sockets.listening = s.sockets.listening) : { s with sockets }.Kept where
  accounted := haccounted
  lost := hlost.trans h.lost
  cliSocket := by
    change sockets.connected none = none
    rw [hconnected]
    exact h.cliSocket
  listening p := by
    change _ ↔ (sockets.listening p).isSome
    rw [hlistening]
    exact h.listening p
  made c := by
    change (sockets.connected (some c)).isSome → _
    rw [hconnected]
    exact h.made c
  present c state := by
    change _ → _ → (sockets.connected (some c)).isSome
    rw [hconnected]
    exact h.present c state

theorem Kept.accept (h : s.Kept) (hstarted : s.isStarted p = true) (calls : AcceptCalls) :
    Ends (s.accept config calls p) Kept ServerFault.Harmless := by
  apply (ends_socket (Sockets.accept_sockets config.kind calls h.accounted
    ((h.listening p).mp hstarted) none)).bind
  rintro ⟨r, sockets⟩ hreceived
  dsimp only
  rcases hreceived.cases with ⟨hr, csi, hassigned⟩ | ⟨hr, hconnected, hlistening, hlost⟩
  · dsimp only at hr
    subst hr
    have hcli : sockets.connected none = some csi := by
      rw [hassigned.connected, Function.update_self]
    have hcleared : (sockets.setConnected none none).connected = s.sockets.connected := by
      change Function.update sockets.connected none none = _
      rw [hassigned.connected, Function.update_idem, ← h.cliSocket, Function.update_eq_self]
    have hunmade : (sockets.setConnected none none).connected (some s.conns.length) = none := by
      rw [hcleared]
      exact h.unmade
    rw [if_pos rfl]
    unfold acceptSocket
    split
    · exact ⟨nofun, nofun⟩
    · dsimp only
      rw [hcli]
      dsimp only
      split
      · have hmove := ends_socket
          (Sockets.move_ends hreceived.accounted (some s.conns.length) none)
        rw [bind_assoc]
        apply hmove.bind
        rintro sockets' ⟨haccounted, hmoved⟩
        rw [hcli] at hmoved
        have hconnected : sockets'.connected =
            Function.update s.sockets.connected (some s.conns.length) (some csi) := by
          rw [hmoved.connected, hcleared]
        have hnone : sockets'.connected none = none := by
          rw [hconnected, Function.update_of_ne (by simp)]
          exact h.cliSocket
        have hlost : sockets'.lost = s.sockets.lost :=
          (hmoved.lost_of_none hunmade).trans (hassigned.lost_of_none h.cliSocket)
        have hlistening : sockets'.listening = s.sockets.listening :=
          hmoved.listening.trans hassigned.listening
        rw [pure_bind]
        dsimp only
        rw [Sockets.destroy_of_none hnone]
        exact h.append .accepting (some csi) haccounted hlost hlistening hconnected fun _ => rfl
      · exact ⟨nofun, nofun⟩
  · have hne : r ≠ 0 := by
      dsimp only at hr
      omega
    rw [if_neg hne]
    have hnone : sockets.connected none = none := by
      rw [hconnected]
      exact h.cliSocket
    rw [pure_bind]
    dsimp only
    rw [Sockets.destroy_of_none hnone]
    exact h.congr hreceived.accounted hlost hconnected hlistening

theorem Kept.stop (h : s.Kept) (p : Fin n) :
    Ends (s.stop p) Kept ServerFault.Harmless := by
  unfold ServerState.stop
  cases hsome : s.sockets.listening p with
  | none =>
      refine ⟨h.accounted, h.lost, h.cliSocket, ?_, h.made, h.present⟩
      intro p'
      by_cases hp : p' = p
      · subst hp
        simp [hsome]
      · change Function.update s.isStarted p false p' = true ↔ _
        rw [Function.update_of_ne hp]
        exact h.listening p'
  | some ssi =>
      have habort : s.sockets.abortAccept p = s.sockets.destroyServer p := by
        unfold Sockets.abortAccept
        rw [hsome]
      dsimp only
      rw [habort]
      apply (ends_socket (Sockets.destroyServer_ends h.accounted p)).bind
      rintro sockets ⟨haccounted, hlistening, hconnected, hlost⟩
      refine ⟨haccounted, hlost.trans h.lost, ?_, ?_, ?_, ?_⟩
      · dsimp only
        rw [hconnected]
        exact h.cliSocket
      · intro p'
        dsimp only
        rw [hlistening]
        by_cases hp : p' = p
        · subst hp
          simp
        · rw [Function.update_of_ne hp, Function.update_of_ne hp]
          exact h.listening p'
      · intro c
        dsimp only
        rw [hconnected]
        exact h.made c
      · intro c state
        dsimp only
        rw [hconnected]
        exact h.present c state

theorem closeExisting_ends (h : s.sockets.Accounted []) (c : Nat) :
    Ends (s.closeExisting c)
      (fun sockets => sockets.Accounted [] ∧ s.sockets.Assigned (some c) none sockets ∧
        sockets.lost = s.sockets.lost) SocketFault.Harmless := by
  unfold closeExisting
  cases hsome : s.sockets.connected (some c) with
  | none =>
      refine ⟨h, ⟨?_, rfl, .inl rfl⟩, rfl⟩
      rw [← hsome, Function.update_eq_self]
  | some csi =>
      have hclose : s.sockets.close (some c) = s.sockets.destroy (some c) := by
        unfold Sockets.close
        rw [hsome]
      dsimp only
      rw [hclose]
      exact Sockets.destroy_ends h (some c)

/-- Only the state changes. -/
theorem Kept.setState (h : s.Kept) {c : Nat} {state : ConnectionState} (hc : c < s.conns.length)
    (hstate : HasSocket state → (s.sockets.connected (some c)).isSome) :
    (s.setState c state).Kept :=
  h.put state _ hc h.accounted rfl rfl (Function.update_eq_self ..).symm hstate

theorem Kept.process (h : s.Kept) (calls : ConnectCalls) (isConnected : Int) (c : Nat) :
    Ends (s.process config calls isConnected c) Kept ServerFault.Harmless := by
  unfold ServerState.process
  cases hstate : s.conns[c]? with
  | none => exact ⟨nofun, nofun⟩
  | some state =>
      have hc : c < s.conns.length := (List.getElem?_eq_some_iff.mp hstate).1
      have hestablished (hhas : HasSocket state) : (s.setState c .connectionEstablished).Kept :=
        h.setState hc fun _ => h.present c state hstate hhas
      cases state with
      | none => exact h
      | closed => exact h
      | connectionEstablished => exact h
      | connecting =>
          apply (ends_socket (closeExisting_ends h.accounted c)).bind
          rintro sockets ⟨haccounted, hclosed, hlost⟩
          have hnone : sockets.connected (some c) = none := by
            rw [hclosed.connected, Function.update_self]
          apply (ends_socket (Sockets.connect_sockets config.kind
            ⟨true, config.bindBeforeConnect⟩ calls haccounted (some c))).bind
          rintro ⟨r, sockets'⟩ hreceived
          dsimp only
          rcases hreceived.cases with ⟨hr, csi, hassigned⟩ | ⟨hr, hconnected, hlistening, hlost'⟩
          · dsimp only at hr
            subst hr
            rw [if_neg (lt_irrefl _)]
            split
            · apply h.put .connectingRe (some csi) hc hreceived.accounted
              · exact (hassigned.lost_of_none hnone).trans hlost
              · exact hassigned.listening.trans hclosed.listening
              · rw [hassigned.connected, hclosed.connected, Function.update_idem]
              · exact fun _ => rfl
            · exact ⟨nofun, nofun⟩
          · rw [if_pos hr]
            have hput := h.put .connecting none hc hreceived.accounted
              (hlost'.trans hlost) (hlistening.trans hclosed.listening)
              (hconnected.trans hclosed.connected) nofun
            have hsame : s.conns.set c .connecting = s.conns := by
              obtain ⟨hc', hget⟩ := List.getElem?_eq_some_iff.mp hstate
              rw [← hget, List.set_getElem_self]
            unfold ServerState.setState at hput
            dsimp only at hput
            rw [hsame] at hput
            exact hput
      | connectingRe =>
          obtain ⟨csi, hsome⟩ := Option.isSome_iff_exists.mp (h.present c _ hstate trivial)
          dsimp only
          rw [hsome]
          dsimp only
          split
          · exact h
          · exact hestablished trivial
      | accepting =>
          obtain ⟨csi, hsome⟩ := Option.isSome_iff_exists.mp (h.present c _ hstate trivial)
          dsimp only
          rw [hsome]
          exact hestablished trivial

theorem Kept.step [NeZero n] (op : ServerOp n) (h : s.Kept) (henabled : s.Enabled op) :
    Ends (s.step config op) Kept ServerFault.Harmless := by
  cases op with
  | start => exact ⟨h.accounted, h.lost, h.cliSocket, h.listening, h.made, h.present⟩
  | bind bindAddr attempts =>
      apply (h.bind bindAddr attempts).bind
      exact fun _ hs => hs
  | stop p => exact h.stop p
  | accept p calls => exact h.accept henabled calls
  | createConnect =>
      change Ends s.createConnect _ _
      unfold createConnect
      split
      · exact ⟨nofun, nofun⟩
      · apply h.append .connecting none h.accounted rfl rfl
        · rw [← h.unmade, Function.update_eq_self]
        · exact nofun
  | connect c =>
      change Ends (if c < s.conns.length then _ else _) _ _
      split
      · rename_i hc
        exact h.setState hc nofun
      · exact ⟨nofun, nofun⟩
  | process c calls isConnected => exact h.process calls isConnected c
  | openOther fd =>
      apply (ends_socket (Sockets.openOther_ends h.accounted fd)).bind
      rintro sockets ⟨haccounted, hlost, hconnected, hlistening⟩
      exact h.congr haccounted hlost hconnected hlistening
  | closeOther fd =>
      apply (ends_socket (Sockets.closeOther_ends h.accounted henabled)).bind
      rintro sockets ⟨haccounted, hlost, hconnected, hlistening⟩
      exact h.congr haccounted hlost hconnected hlistening

theorem kept_of_reachable [NeZero n] (h : (machine config).Reachable s) : s.Kept := by
  refine h.invariant (fun _ hfirst => Kept.start hfirst) ?_
  intro before op after _ hbefore henabled hrun
  exact (hbefore.step op henabled).value hrun

/-- Between its steps a server can reach every open descriptor, and no step closes one that is not
open or asks an empty handle for its socket. -/
theorem server_descriptors [NeZero n] (config : ServerConfig) (s : ServerState n)
    (h : (machine config).Reachable s) :
    (∀ fd, fd ∈ s.sockets.table ↔ fd ∈ s.sockets.others ∨
      (∃ p, s.isStarted p = true ∧ fd ∈ s.sockets.listeningFds p) ∨
      ∃ c < s.conns.length, fd ∈ fdsOf (s.sockets.connected (some c))) ∧
    (∀ p q fd, fd ∈ s.sockets.place [] p → fd ∈ s.sockets.place [] q → p = q) ∧
    (∀ p, s.isStarted p = true ↔ (s.sockets.listening p).isSome) ∧
    (∀ c state, s.conns[c]? = some state → HasSocket state →
      (s.sockets.connected (some c)).isSome) ∧
    ∀ op, s.Enabled op → s.step config op ≠ .error (.socket .badDescriptor) ∧
      s.step config op ≠ .error (.socket .nullSocket) := by
  have hkept := kept_of_reachable h
  refine ⟨?_, fun _ _ _ => hkept.accounted.apart, hkept.listening, hkept.present, ?_⟩
  · intro fd
    constructor
    · intro hfd
      obtain ⟨p, hp⟩ := hkept.accounted.covers hfd
      cases p with
      | others => exact .inl hp
      | listening p =>
          refine .inr (.inl ⟨p, ?_, hp⟩)
          rw [hkept.listening]
          cases hsome : s.sockets.listening p with
          | none =>
              change fd ∈ s.sockets.listeningFds p at hp
              unfold Sockets.listeningFds at hp
              rw [hsome] at hp
              exact nomatch hp
          | some ssi => rfl
      | connected sock =>
          change fd ∈ fdsOf (s.sockets.connected sock) at hp
          cases sock with
          | none =>
              rw [hkept.cliSocket] at hp
              exact nomatch hp
          | some c =>
              refine .inr (.inr ⟨c, ?_, hp⟩)
              apply hkept.made
              cases hsome : s.sockets.connected (some c) with
              | none =>
                  rw [hsome] at hp
                  exact nomatch hp
              | some csi => rfl
      | lost =>
          change fd ∈ s.sockets.lost at hp
          rw [hkept.lost] at hp
          exact nomatch hp
      | hand => exact nomatch hp
    · rintro (hfd | ⟨p, -, hfd⟩ | ⟨c, -, hfd⟩)
      · exact hkept.accounted.sound (p := .others) hfd
      · exact hkept.accounted.sound (p := .listening p) hfd
      · exact hkept.accounted.sound (p := .connected (some c)) hfd
  · intro op henabled
    have hends : Ends (s.step config op) Kept ServerFault.Harmless := hkept.step op henabled
    constructor
    · intro hfault
      exact (hends.fault hfault).1 rfl
    · intro hfault
      exact (hends.fault hfault).2 rfl

def tcpConfig : ServerConfig := ⟨.posix, 1, 30000, false⟩

/-- A server over TCP listens and accepts a connection. -/
theorem server_descriptors_after_one_accept : ∃ s : ServerState 4,
    s.conns = [.accepting] ∧ fdsOf (s.sockets.connected (some 0)) = [4] ∧
    (∀ p, s.isStarted p = true ↔ (s.sockets.listening p).isSome) := by
  have hstart : (machine (n := 4) tcpConfig).Reachable
      ⟨⟨{0, 1, 2}, [0, 1, 2], fun _ => none, fun _ => none, []⟩, fun _ => false, 0, [], true,
        false⟩ :=
    .start ⟨⟨by decide, by simp, fun _ => rfl, fun _ => rfl, rfl⟩, fun _ => rfl, rfl, rfl⟩
  have hbound := hstart.next
    (.bind ⟨0, 0, ⟨⟨afInet, 1, 0, .replicate 8 0⟩, .replicate 12 0⟩, .replicate 20 0⟩
      fun _ => ⟨.ok 3, none, none, none, none⟩) trivial rfl
  have haccepted := hbound.next (.accept (Fin.ofNat 4 0) ⟨.ok 4, none, none, true, none⟩) rfl rfl
  exact ⟨_, rfl, rfl, (server_descriptors tcpConfig _ haccepted).2.2.1⟩

end ServerState

end RdmaCapsule.Network
