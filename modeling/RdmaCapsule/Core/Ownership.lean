import RdmaCapsule.Core.EventPath
import RdmaCapsule.Core.Lifecycle
import RdmaCapsule.Core.ReadPath

/-! Every receive chunk has one owner, in every state that the library reaches. -/
namespace RdmaCapsule.Core

open RdmaCapsule.Foundation

namespace World

variable {w : World} {c : Nat} {config : Config}

theorem Held.step (h : w.Held (w.out noPolled)) (config : Config) (op : Op)
    (henabled : w.Enabled op) :
    Ends (w.step config op) (fun w' => w'.Held (w'.out noPolled)) Fault.Orderly := by
  cases op with
  | create k q isServer answer =>
      exact (h.create config isServer answer henabled.1 henabled.2.1 henabled.2.2.1).mono
        (fun _ hw => hw.1) fun _ hf => hf
  | call k call answers => exact (h.call k call answers).mono (fun _ hw => hw.1) fun _ hf => hf
  | setTxcCallback k => exact (h.setTxcCallback k).mono (fun _ hw => hw.1) fun _ hf => hf
  | read k len answers => exact (h.read config answers k len).bind fun _ hw => hw.1
  | drain k => exact (h.drain config k).mono (fun _ hw => hw.1) fun _ hf => hf
  | updatePostBacklog k =>
      refine (h.updatePostBacklog config k).mono ?_ fun _ hf => hf
      exact fun w' hw' => hw'.2.1.out_eq noPolled ▸ hw'.1
  | handleRxEvent cqe =>
      exact (h.handleRxEvent config cqe henabled).mono (fun _ hw => hw.1) fun _ hf => hf
  | handleTxEvent cqe =>
      exact (h.handleTxEvent cqe henabled).mono (fun _ hw => hw.1) fun _ hf => hf
  | destroy k switched => exact (h.destroy switched k).mono (fun _ hw => hw.1) fun _ hf => hf
  | idle => exact h.idle.mono (fun _ hw => hw.1) fun _ hf => hf

theorem Held.start (h : w.Start) : w.Held (w.out noPolled) := by
  obtain ⟨hfree, hmade, hqps, hsocks, hconns, _, hdead, _⟩ := h
  have hplace : ∀ p, w.ib.place (w.out noPolled) p = [] := by
    rintro (_ | q | k | k | k)
    · exact hfree
    · simp [Infiniband.place, Infiniband.recvQueue, hqps]
    · simp [Infiniband.place, World.out, hsocks]
    · simp [Infiniband.place, World.out, hsocks]
    · rfl
  have hnot : ∀ {p c}, c ∉ w.ib.place (w.out noPolled) p := fun {p c} hc =>
    List.not_mem_nil (hplace p ▸ hc : c ∈ ([] : List Nat))
  refine ⟨⟨⟨fun p => hplace p ▸ List.nodup_nil, fun hp _ => absurd hp hnot,
    fun hp => absurd hp hnot, ?_⟩, fun hp => absurd hp hnot⟩, ?_⟩
  · intro c hc
    exact absurd hc (by simp [hmade])
  · have hsock : ∀ k, w.sockQps k = none := fun k => by simp [sockQps, hsocks]
    constructor <;> simp [hqps, hsock, hconns, hdead]

theorem held_of_reachable (h : (machine config).Reachable w) : w.Held (w.out noPolled) :=
  h.invariant (fun _ hstart => Held.start hstart)
    (fun _ op _ _ hheld henabled hrun => (hheld.step config op henabled).value hrun)

/-- Who can have a chunk between two operations. -/
inductive Owner where
  | free
  | recvQueue (q : Nat)
  | wc (k : Nat)
  | buffers (k : Nat)

def owned (w : World) : Owner → List Nat
  | .free => w.ib.free
  | .recvQueue q => w.ib.recvQueue q
  | .wc k => ((w.socks k).map fun s => s.wc.map (·.chunk)).getD []
  | .buffers k => ((w.socks k).map (·.buffers)).getD []

def Owner.place : Owner → Place Slot
  | .free => .free
  | .recvQueue q => .rq q
  | .wc k => .out (.wc k)
  | .buffers k => .out (.buffers k)

theorem Owner.place_injective {owner owner' : Owner} (h : owner.place = owner'.place) :
    owner = owner' := by
  cases owner <;> cases owner' <;> simp_all [Owner.place]

theorem owned_eq_place (w : World) (owner : Owner) :
    w.owned owner = w.ib.place (w.out noPolled) owner.place := by
  cases owner <;> rfl

theorem Held.existsUnique_owner (h : w.Held (w.out noPolled)) (hc : c < w.ib.made) :
    ∃! owner, c ∈ w.owned owner := by
  obtain ⟨p, hp, honly⟩ := h.placed.exclusive.existsUnique hc
  have howner : ∃ owner : Owner, owner.place = p := by
    rcases p with _ | q | k | k | k
    · exact ⟨.free, rfl⟩
    · exact ⟨.recvQueue q, rfl⟩
    · exact ⟨.wc k, rfl⟩
    · exact ⟨.buffers k, rfl⟩
    · exact nomatch hp
  obtain ⟨owner, rfl⟩ := howner
  have hmem : c ∈ w.owned owner := (owned_eq_place w owner).symm ▸ hp
  refine ⟨owner, hmem, fun owner' (howner' : c ∈ w.owned owner') => ?_⟩
  rw [owned_eq_place] at howner'
  exact Owner.place_injective (honly _ howner')

/-- In every run, between two operations each receive chunk has exactly one
owner and is there once, and its back pointer names the queue it is in. So no
operation fails to find a chunk in its queue or releases one that is free. -/
theorem receive_chunk_ownership (config : Config) (w : World)
    (h : (machine config).Reachable w) :
    (∀ c < w.ib.made, ∃! owner, c ∈ w.owned owner) ∧
    (∀ owner, (w.owned owner).Nodup ∧ ∀ c ∈ w.owned owner, c < w.ib.made) ∧
    (∀ c < w.ib.made, ∀ q, (w.ib.chunk c).qp = some q ↔ c ∈ w.owned (.recvQueue q)) ∧
    (∀ op, w.Enabled op → w.step config op ≠ .error .kassertRemoveRqWr ∧
      w.step config op ≠ .error .releasedTwice) := by
  have hheld := held_of_reachable h
  refine ⟨fun c hc => hheld.existsUnique_owner hc, fun owner => ?_, fun c hc q => ?_,
    fun op henabled => ?_⟩
  · rw [owned_eq_place]
    exact ⟨hheld.placed.exclusive.nodup _, fun c hc => hheld.placed.exclusive.sound hc⟩
  · exact hheld.placed.qp_iff hc q
  · have hstep := hheld.step config op henabled
    exact ⟨fun hrun => (hstep.fault hrun).1 rfl, fun hrun => (hstep.fault hrun).2 rfl⟩

/-- Two chunks to a block, and receive queues of one. -/
def smallConfig : Config where
  rdmaBufferSize := 4
  rxQueueLen := 1
  block _ := 2
  postRecv _ := none
  lid := 0
  gid := Vector.replicate 16 0
  mcGroup := ⟨0, 0, 0, 0⟩

/-- A pool that is cut once, into one chunk. -/
def tightConfig : Config := { smallConfig with block := fun n => if n = 0 then 1 else 0 }

/-- A process that has connected to no one. -/
def fresh : World where
  ib := ⟨[], 0, fun _ => ⟨none, 0, 0, 0, 0⟩, fun _ => none, 0, 0⟩
  tx := .new 0
  socks _ := none
  qpConns _ := none
  numQpConn := 0
  deadQueuePairs := []
  inflight := 0
  callbacks := []
  deleted := []

theorem fresh_start : fresh.Start :=
  ⟨rfl, rfl, fun _ => rfl, fun _ => rfl, fun _ => rfl, rfl, rfl, rfl⟩

theorem receive_chunk_ownership_after_one_message :
    ∃ w, (machine smallConfig).Reachable w ∧ w.owned (.wc 0) = [0] ∧
      w.owned (.recvQueue 1) = [1] ∧ ∃! owner, 0 ∈ w.owned owner := by
  have hfresh : (machine smallConfig).Reachable fresh := .start fresh_start
  have hcreated := hfresh.next (.create 0 1 false .created) ⟨rfl, rfl, by decide, by decide⟩ rfl
  have hpassed := hcreated.next (.handleRxEvent [⟨1, 0, 3, .success⟩])
    ⟨by decide, by simp; exact ⟨_, rfl, by decide⟩⟩ rfl
  exact ⟨_, hpassed, rfl, rfl, (receive_chunk_ownership smallConfig _ hpassed).1 0 (by decide)⟩

end World

end RdmaCapsule.Core
