import RdmaCapsule.Core.Registry

/-! The containers of the connections join the free list and the receive queues
as places of receive chunks: what a connection has been passed and not looked
at, what it has not read to the end, and what `handle_rx_event` collects for it
during a batch. `Held` is what every operation keeps; `Keeps` says which of them
leave the account between receive queue and backlog alone. -/
namespace RdmaCapsule.Core

open RdmaCapsule.Foundation

inductive Slot where
  | wc (k : Nat)
  | buffers (k : Nat)
  | polled (k : Nat)
  deriving DecidableEq

/-- The faults that misplaced chunks would cause are excluded. -/
def Fault.Orderly (fault : Fault) : Prop :=
  fault ≠ .kassertRemoveRqWr ∧ fault ≠ .releasedTwice

theorem QueuePair.WF.erase {qp : QueuePair} (h : qp.WF) {c : Nat} (hc : c ∉ qp.posted) :
    ({ qp with recvQueue := qp.recvQueue.erase c } : QueuePair).WF := by
  refine ⟨⟨h.sound.1, fun c' hc' => ?_⟩, h.beacon⟩
  have hne : c' ≠ c := fun heq => hc (heq ▸ hc')
  exact (List.mem_erase_of_ne hne).mpr (h.sound.2 c' hc')

theorem Reposted.wf {qp qp' : QueuePair} {count : Nat} (h : Reposted qp qp' count) (hwf : qp.WF) :
    qp'.WF :=
  ⟨h.sound hwf.sound, fun hbeacon => h.dead.trans (hwf.beacon (h.sends ▸ hbeacon))⟩

namespace World

def sockQps (w : World) (k : Nat) : Option Nat := (w.socks k).bind (·.qp)

def Registered (w : World) : Prop :=
  Registry w.ib.qps w.sockQps w.qpConns w.deadQueuePairs

def out (w : World) (polled : Nat → List RxWc) : Slot → List Nat
  | .wc k => ((w.socks k).map fun s => s.wc.map (·.chunk)).getD []
  | .buffers k => ((w.socks k).map (·.buffers)).getD []
  | .polled k => (polled k).map (·.chunk)

structure Held (w : World) (out : Slot → List Nat) : Prop where
  placed : w.ib.Placed out
  registered : w.Registered

/-- Nothing is being polled. -/
def noPolled : Nat → List RxWc := fun _ => []

/-- The connections of two states are the same, apart from their backlog. -/
def Resembles (w w' : World) : Prop :=
  ∀ k, (w'.socks k).map (fun s => { s with postBacklog := 0 }) =
    (w.socks k).map (fun s => { s with postBacklog := 0 })

/-- No connection has another backlog, and no receive queue another length. -/
structure Keeps (w w' : World) : Prop where
  socks : ∀ {k s'}, w'.socks k = some s' →
    ∃ s, w.socks k = some s ∧ s'.qp = s.qp ∧ s'.postBacklog = s.postBacklog
  qps : ∀ {q qp'}, w'.ib.qps q = some qp' → ∃ qp, w.ib.qps q = some qp ∧
    qp'.maxRecvWr = qp.maxRecvWr ∧ qp'.recvQueue.length = qp.recvQueue.length

/-- `update_post_backlog` has nothing to do for this connection. -/
def NoBacklog (w : World) (k : Nat) : Prop := ∀ s, w.socks k = some s → s.postBacklog = 0

/-- Receive queue and backlog together are as long as the queue was made. -/
def Balanced (w : World) (config : Config) : Prop :=
  ∀ k s q qp, w.socks k = some s → s.qp = some q → w.ib.qps q = some qp →
    qp.maxRecvWr = config.rxQueueLen ∧ qp.recvQueue.length + s.postBacklog = qp.maxRecvWr

variable {w w' : World} {out out' : Slot → List Nat} {polled : Nat → List RxWc} {k q c : Nat}
  {s s' : Socket} {config : Config}

@[simp] theorem setSock_socks (w : World) (k : Nat) (s : Socket) :
    (w.setSock k s).socks = Function.update w.socks k (some s) := rfl

theorem Resembles.refl (w : World) : w.Resembles w := fun _ => rfl

theorem Resembles.trans {w'' : World} (h : w.Resembles w') (h' : w'.Resembles w'') :
    w.Resembles w'' := fun k => (h' k).trans (h k)

theorem Resembles.out_eq (h : w.Resembles w') (polled : Nat → List RxWc) :
    w'.out polled = w.out polled := by
  funext slot
  cases slot with
  | wc k =>
      have := congrArg (fun o => (o.map fun s : Socket => s.wc.map (·.chunk)).getD []) (h k)
      simpa [out, Function.comp_def] using this
  | buffers k =>
      have := congrArg (fun o => (o.map fun s : Socket => s.buffers).getD []) (h k)
      simpa [out, Function.comp_def] using this
  | polled k => rfl

theorem Resembles.sock (h : w.Resembles w') (hs : w.socks k = some s) :
    ∃ s', w'.socks k = some s' ∧ s'.wc = s.wc ∧ s'.buffers = s.buffers ∧ s'.qp = s.qp ∧
      s'.ep = s.ep := by
  have := h k
  rw [hs] at this
  obtain ⟨s', hs', heq⟩ := Option.map_eq_some_iff.mp this
  simp only [Socket.mk.injEq] at heq
  obtain ⟨hqp, hep, hwc, hbuffers, _⟩ := heq
  exact ⟨s', hs', hwc, hbuffers, hqp, hep⟩

/-- Only the backlog of one connection changes. -/
theorem resembles_setSock (hs : w.socks k = some s) (ib : Infiniband) (backlog : Nat) :
    w.Resembles ({ w with ib }.setSock k { s with postBacklog := backlog }) := by
  intro k'
  by_cases hk : k' = k
  · subst hk
    simp [setSock, hs]
  · simp [setSock, Function.update_of_ne hk]

theorem Keeps.refl (w : World) : w.Keeps w :=
  ⟨fun hs => ⟨_, hs, rfl, rfl⟩, fun hqp => ⟨_, hqp, rfl, rfl⟩⟩

theorem Keeps.trans {w'' : World} (h : w.Keeps w') (h' : w'.Keeps w'') : w.Keeps w'' := by
  constructor
  · intro k s'' hs''
    obtain ⟨s', hs', hqp', hbacklog'⟩ := h'.socks hs''
    obtain ⟨s, hs, hqp, hbacklog⟩ := h.socks hs'
    exact ⟨s, hs, hqp'.trans hqp, hbacklog'.trans hbacklog⟩
  · intro q qp'' hqp''
    obtain ⟨qp', hqp', hmax', hlength'⟩ := h'.qps hqp''
    obtain ⟨qp, hqp, hmax, hlength⟩ := h.qps hqp'
    exact ⟨qp, hqp, hmax'.trans hmax, hlength'.trans hlength⟩

theorem keeps_of_eq (hsocks : w'.socks = w.socks) (hqps : w'.ib.qps = w.ib.qps) : w.Keeps w' :=
  ⟨fun hs => ⟨_, hsocks ▸ hs, rfl, rfl⟩, fun hqp => ⟨_, hqps ▸ hqp, rfl, rfl⟩⟩

theorem keeps_setIb {ib : Infiniband} (hqps : ib.qps = w.ib.qps) : w.Keeps { w with ib } :=
  keeps_of_eq rfl hqps

theorem keeps_setSock (hs : w.socks k = some s) (s' : Socket) (hqp : s'.qp = s.qp)
    (hbacklog : s'.postBacklog = s.postBacklog) : w.Keeps (w.setSock k s') := by
  refine ⟨fun {k' s''} hs'' => ?_, fun hqp => ⟨_, hqp, rfl, rfl⟩⟩
  by_cases hk : k' = k
  · subst hk
    rw [setSock_socks, Function.update_self] at hs''
    cases hs''
    exact ⟨s, hs, hqp, hbacklog⟩
  · rw [setSock_socks, Function.update_of_ne hk] at hs''
    exact ⟨s'', hs'', rfl, rfl⟩

/-- One queue pair changes, but not its receive queue. -/
theorem keeps_modifyQp {f : QueuePair → QueuePair}
    (hsocks : ∀ {k s'}, w'.socks k = some s' →
      ∃ s, w.socks k = some s ∧ s'.qp = s.qp ∧ s'.postBacklog = s.postBacklog)
    (hqps : w'.ib.qps = Function.update w.ib.qps q ((w.ib.qps q).map f))
    (hf : ∀ qp, (f qp).maxRecvWr = qp.maxRecvWr ∧ (f qp).recvQueue = qp.recvQueue) :
    w.Keeps w' := by
  refine ⟨hsocks, fun {q' qp'} hqp' => ?_⟩
  rw [hqps] at hqp'
  by_cases hq : q' = q
  · subst hq
    rw [Function.update_self, Option.map_eq_some_iff] at hqp'
    obtain ⟨qp, hqp, rfl⟩ := hqp'
    exact ⟨qp, hqp, (hf qp).1, congrArg List.length (hf qp).2⟩
  · rw [Function.update_of_ne hq] at hqp'
    exact ⟨qp', hqp', rfl, rfl⟩

theorem Balanced.of_keeps (h : w.Balanced config) (hkeeps : w.Keeps w') : w'.Balanced config := by
  intro k s' q qp' hs' hq hqp'
  obtain ⟨s, hs, hsame, hbacklog⟩ := hkeeps.socks hs'
  obtain ⟨qp, hqp, hmax, hlength⟩ := hkeeps.qps hqp'
  rw [hmax, hlength, hbacklog]
  exact h k s q qp hs (hsame ▸ hq) hqp

theorem NoBacklog.of_keeps (h : w.NoBacklog k) (hkeeps : w.Keeps w') : w'.NoBacklog k := by
  intro s' hs'
  obtain ⟨s, hs, _, hbacklog⟩ := hkeeps.socks hs'
  exact hbacklog.trans (h s hs)

theorem sockQps_of_some (hs : w.socks k = some s) : w.sockQps k = s.qp := by
  simp [sockQps, hs]

theorem sockQps_setSock (w : World) (k : Nat) (s : Socket) :
    (w.setSock k s).sockQps = Function.update w.sockQps k s.qp := by
  funext k'
  by_cases hk : k' = k
  · subst hk
    simp [sockQps, setSock]
  · simp [sockQps, setSock, Function.update_of_ne hk]

theorem sockQps_setSock_same (hs : w.socks k = some s) (hqp : s'.qp = s.qp) :
    (w.setSock k s').sockQps = w.sockQps := by
  rw [sockQps_setSock, hqp, ← sockQps_of_some hs, Function.update_eq_self]

theorem Registered.setSock (h : w.Registered) (hs : w.socks k = some s) (hqp : s'.qp = s.qp) :
    (w.setSock k s').Registered := by
  unfold Registered
  rw [sockQps_setSock_same hs hqp]
  exact h

theorem Held.setSock (h : w.Held out) (hs : w.socks k = some s) (hqp : s'.qp = s.qp) :
    (w.setSock k s').Held out :=
  ⟨h.placed, h.registered.setSock hs hqp⟩

/-- A cursor moves. -/
theorem Held.setChunk (h : w.Held out) {chunk : Chunk} (hqp : chunk.qp = (w.ib.chunk c).qp) :
    (w.setChunk c chunk).Held out := by
  refine ⟨h.placed.congr rfl rfl (fun _ => rfl) (fun _ => .refl _) fun c' => ?_, h.registered⟩
  by_cases hc : c' = c
  · subst hc
    simpa [World.setChunk, Infiniband.setChunk] using hqp
  · simp [World.setChunk, Infiniband.setChunk, Function.update_of_ne hc]

/-- `recall_chunk_to_pool` of the first chunk in a container. -/
theorem Held.recall {o : Slot} {rest : List Nat} (h : w.Held (Function.update out o (c :: rest))) :
    ∃ ib, w.recallChunkToPool c = .ok { w with ib } ∧
      ({ w with ib } : World).Held (Function.update out o rest) ∧ ib.qps = w.ib.qps ∧
      ∀ c', c' ≠ c → ib.chunk c' = w.ib.chunk c' := by
  have hout : (Function.update out o (c :: rest) o).Perm (c :: Function.update out o rest o) :=
    .of_eq (by simp)
  obtain ⟨ib, hrun, hplaced, hqps, hchunk⟩ :=
    h.placed.recall o hout fun o' hne => by simp [hne]
  refine ⟨ib, ?_, ⟨hplaced, ?_⟩, hqps, hchunk⟩
  · unfold recallChunkToPool
    rw [hrun]
    rfl
  · have hreg := h.registered
    unfold Registered at hreg ⊢
    rwa [hqps]

theorem ends_sock {f : Socket → Except Fault α} {post : α → Prop} {stop : Fault → Prop}
    (hstop : stop .deletedObject) (h : ∀ s, w.socks k = some s → Ends (f s) post stop) :
    Ends (w.sock k >>= f) post stop := by
  unfold sock
  cases hs : w.socks k with
  | none => exact hstop
  | some s => exact h s hs

theorem ends_sockQp {f : Nat → Except Fault α} {post : α → Prop} {stop : Fault → Prop}
    (hstop : stop .nullVerbsQp) (h : ∀ q, s.qp = some q → Ends (f q) post stop) :
    Ends (sockQp s >>= f) post stop := by
  unfold sockQp
  cases hq : s.qp with
  | none => exact hstop
  | some q => exact h q hq

/-- Posting for a connection, whatever it does to the backlog. -/
theorem Held.post (h : w.Held out) (hs : w.socks k = some s) (hq : s.qp = some q) (num : Nat)
    (backlog : Nat → Nat) :
    Ends (w.ib.postChunksToRq config.toEnv num q)
      (fun result => ({ w with ib := result.2 }.setSock k
          { s with postBacklog := backlog result.1 }).Held out ∧
        ∃ qp, w.ib.qps q = some qp ∧ qp.dead = false ∧
          Infiniband.Posts config.toEnv w.ib out q qp num result)
      Fault.Orderly := by
  obtain ⟨_, qp, hqp, hlive⟩ := h.registered.socket (sockQps_of_some hs ▸ hq)
  refine (h.placed.postChunksToRq hqp num).mono ?_ ?_
  · intro result hposts
    obtain ⟨qp', hqps', hreposted⟩ := hposts.queue
    refine ⟨⟨hposts.placed, Registered.setSock (s := s) ?_ hs rfl⟩, qp, hqp, hlive, hposts⟩
    have hreg := h.registered.updateQp hqp (hreposted.wf (h.registered.wf hqp)) hreposted.dead
    unfold Registered
    exact hqps' ▸ hreg
  · rintro fault (rfl | rfl) <;> exact ⟨by simp, by simp⟩

theorem Held.updatePostBacklog (h : w.Held out) (config : Config) (k : Nat) :
    Ends (w.updatePostBacklog config k)
      (fun w' => w'.Held out ∧ w.Resembles w' ∧ (w.NoBacklog k → w' = w)) Fault.Orderly := by
  unfold World.updatePostBacklog
  refine ends_sock ⟨by simp, by simp⟩ fun s hs => ?_
  split
  · exact ⟨h, .refl w, fun _ => rfl⟩
  · rename_i hbacklog
    refine ends_sockQp ⟨by simp, by simp⟩ fun q hq => ?_
    refine (h.post hs hq _ fun r => s.postBacklog - (s.postBacklog - r)).bind ?_
    rintro ⟨r, ib⟩ ⟨hheld, _⟩
    exact ⟨hheld, resembles_setSock hs ib _, fun hnone => absurd (hnone s hs) hbacklog⟩

theorem out_setSock (w : World) (k : Nat) (s : Socket) (polled : Nat → List RxWc) :
    (w.setSock k s).out polled = Function.update
      (Function.update (w.out polled) (.wc k) (s.wc.map (·.chunk))) (.buffers k) s.buffers := by
  funext slot
  rcases slot with k' | k' | k'
  · by_cases hk : k' = k
    · subst hk
      simp [World.out, World.setSock]
    · simp [World.out, World.setSock, hk]
  · by_cases hk : k' = k
    · subst hk
      simp [World.out, World.setSock]
    · simp [World.out, World.setSock, hk]
  · rfl

theorem out_wc (hs : w.socks k = some s) (polled : Nat → List RxWc) :
    w.out polled (.wc k) = s.wc.map (·.chunk) := by
  simp [World.out, hs]

theorem out_buffers (hs : w.socks k = some s) (polled : Nat → List RxWc) :
    w.out polled (.buffers k) = s.buffers := by
  simp [World.out, hs]

/-- A connection whose two containers are as they were. -/
theorem out_setSock_same (hs : w.socks k = some s) (s' : Socket) (hwc : s'.wc = s.wc)
    (hbuffers : s'.buffers = s.buffers) : (w.setSock k s').out polled = w.out polled := by
  rw [out_setSock, hwc, hbuffers, ← out_wc hs polled,
    ← out_buffers hs polled, Function.update_eq_self, Function.update_eq_self]

/-- `get_wc`: the completions are now in the hands of the caller. -/
theorem Held.getWc (h : w.Held (w.out polled)) (hs : w.socks k = some s) :
    (w.setSock k { s with wc := [] }).Held (Function.update
      ((w.setSock k { s with wc := [] }).out polled) (.wc k) (s.wc.map (·.chunk))) := by
  have hout : Function.update ((w.setSock k { s with wc := [] }).out polled) (.wc k)
      (s.wc.map (·.chunk)) = w.out polled := by
    rw [out_setSock]
    funext slot
    by_cases hwc : slot = .wc k
    · subst hwc
      simp [out_wc hs]
    · by_cases hbuffers : slot = .buffers k
      · subst hbuffers
        simp [out_buffers hs]
      · simp [hwc, hbuffers]
  rw [hout]
  exact h.setSock hs rfl

theorem out_congr (hsocks : w'.socks = w.socks) (polled : Nat → List RxWc) :
    w'.out polled = w.out polled := by
  funext slot
  cases slot <;> simp [World.out, hsocks]

/-- What an endpoint posts is data, so it concerns no chunk of the pool. -/
theorem Held.setEndpoint (h : w.Held (w.out noPolled)) (hs : w.socks k = some s)
    (hq : s.qp = some q) (ep : Endpoint) :
    (w.setEndpoint k s q ep).Held ((w.setEndpoint k s q ep).out noPolled) := by
  obtain ⟨_, qp, hqp, _⟩ := h.registered.socket (sockQps_of_some hs ▸ hq)
  have hout : (w.setEndpoint k s q ep).out noPolled = w.out noPolled :=
    out_setSock_same hs { s with ep } rfl rfl
  rw [hout]
  constructor
  · refine h.placed.congr rfl rfl (fun q' => ?_) (fun _ => .refl _) fun _ => rfl
    by_cases hqq : q' = q
    · subst hqq
      simp [World.setEndpoint, Infiniband.recvQueue, hqp]
    · simp [World.setEndpoint, Infiniband.recvQueue, Function.update_of_ne hqq]
  · have hqps : (w.setEndpoint k s q ep).ib.qps = Function.update w.ib.qps q (some { qp with
        sends := qp.sends ++ (ep.posted.drop s.ep.posted.length).map .send }) := by
      simp [World.setEndpoint, hqp]
    have hsocks : (w.setSock k { s with ep }).sockQps = w.sockQps := sockQps_setSock_same hs rfl
    change Registry _ (w.setSock k { s with ep }).sockQps _ _
    rw [hqps, hsocks]
    refine h.registered.updateQp hqp ⟨(h.registered.wf hqp).sound, fun hbeacon => ?_⟩ rfl
    refine (h.registered.wf hqp).beacon ((List.mem_append.mp hbeacon).resolve_right ?_)
    intro hnew
    obtain ⟨_, _, heq⟩ := List.mem_map.mp hnew
    cases heq

theorem keeps_setEndpoint (hs : w.socks k = some s) (q : Nat) (ep : Endpoint) :
    w.Keeps (w.setEndpoint k s q ep) :=
  keeps_modifyQp (keeps_setSock hs { s with ep } rfl rfl).socks rfl fun _ => ⟨rfl, rfl⟩

theorem orderly_of_stops {fault : Fault} (h : Endpoint.Stops fault) : fault.Orderly := by
  rcases h with rfl | rfl | rfl <;> exact ⟨by simp, by simp⟩

end World

end RdmaCapsule.Core
