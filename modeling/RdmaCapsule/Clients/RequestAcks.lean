import RdmaCapsule.Clients.RequestFill

/-! The unicast client sends each request to all replicas and counts the send completions of a
request in a ring of 128 counters. The count is right as long as no replica is a whole ring ahead
of another. -/
namespace RdmaCapsule.Clients

open RdmaCapsule.Foundation

def kMaxRequestNum : Nat := 128

structure RequestACKCounter where
  numReplicas : UInt8
  requestAckedNum : Nat → UInt8

namespace RequestACKCounter

def new (numReplicas : UInt8) : RequestACKCounter := ⟨numReplicas, fun _ => 0⟩

def increase (counter : RequestACKCounter) (requestId : UInt64) : Bool × RequestACKCounter :=
  let slot := requestId.toNat % kMaxRequestNum
  let num := counter.requestAckedNum slot + 1
  if num = counter.numReplicas then
    (true, { counter with requestAckedNum := Function.update counter.requestAckedNum slot 0 })
  else (false, { counter with requestAckedNum := Function.update counter.requestAckedNum slot num })

theorem increase_last {counter : RequestACKCounter} {requestId : UInt64}
    (h : counter.requestAckedNum (requestId.toNat % kMaxRequestNum) + 1 = counter.numReplicas) :
    counter.increase requestId = (true, ⟨counter.numReplicas,
      Function.update counter.requestAckedNum (requestId.toNat % kMaxRequestNum) 0⟩) := by
  unfold increase
  dsimp only
  rw [if_pos h]

theorem increase_more {counter : RequestACKCounter} {requestId : UInt64}
    (h : counter.requestAckedNum (requestId.toNat % kMaxRequestNum) + 1 ≠ counter.numReplicas) :
    counter.increase requestId = (false, ⟨counter.numReplicas,
      Function.update counter.requestAckedNum (requestId.toNat % kMaxRequestNum)
        (counter.requestAckedNum (requestId.toNat % kMaxRequestNum) + 1)⟩) := by
  unfold increase
  dsimp only
  rw [if_neg h]

/-- The replicas that have completed request `id`, where each has completed the first `done`. -/
def progress (replicas : Nat) (done : Nat → Nat) (id : Nat) : Nat :=
  ((Finset.range replicas).filter fun replica => id ≤ done replica).card

section Progress

variable {replicas replica id id' : Nat} {done : Nat → Nat}

theorem progress_le : progress replicas done id ≤ replicas := by
  simpa [progress] using Finset.card_filter_le (Finset.range replicas) fun r => id ≤ done r

theorem progress_eq_iff :
    progress replicas done id = replicas ↔ ∀ replica < replicas, id ≤ done replica := by
  constructor
  · intro h replica hreplica
    have hall : (Finset.range replicas).filter (fun r => id ≤ done r) = Finset.range replicas :=
      Finset.eq_of_subset_of_card_le (Finset.filter_subset _ _)
        (by rw [Finset.card_range]; exact h.ge)
    have hmem : replica ∈ (Finset.range replicas).filter fun r => id ≤ done r := by
      rw [hall]
      exact Finset.mem_range.mpr hreplica
    exact (Finset.mem_filter.mp hmem).2
  · intro h
    rw [progress, Finset.filter_true_of_mem fun r hr => h r (Finset.mem_range.mp hr)]
    exact Finset.card_range replicas

theorem progress_eq_zero (h : ∀ replica < replicas, done replica < id) :
    progress replicas done id = 0 := by
  rw [progress, Finset.card_eq_zero, Finset.filter_eq_empty_iff]
  intro replica hreplica hle
  exact absurd hle (Nat.not_le.mpr (h replica (Finset.mem_range.mp hreplica)))

theorem progress_anti (h : id ≤ id') :
    progress replicas done id' ≤ progress replicas done id :=
  Finset.card_le_card (Finset.monotone_filter_right _ fun _ _ hle => h.trans hle)

/-- One more replica has completed the request that it completes next. -/
theorem progress_update (hreplica : replica < replicas) :
    progress replicas (Function.update done replica (done replica + 1)) (done replica + 1) =
      progress replicas done (done replica + 1) + 1 := by
  have hinsert : (Finset.range replicas).filter (fun r => done replica + 1 ≤
        Function.update done replica (done replica + 1) r) =
      insert replica ((Finset.range replicas).filter fun r => done replica + 1 ≤ done r) := by
    ext r
    by_cases hr : r = replica
    · subst hr
      simp [hreplica]
    · simp [hr]
  rw [progress, hinsert, Finset.card_insert_of_notMem (by simp)]
  rfl

theorem progress_update_of_ne (h : id ≠ done replica + 1) :
    progress replicas (Function.update done replica (done replica + 1)) id =
      progress replicas done id := by
  have hsame : ∀ r, id ≤ Function.update done replica (done replica + 1) r ↔ id ≤ done r := by
    intro r
    by_cases hr : r = replica
    · subst hr
      rw [Function.update_self]
      omega
    · rw [Function.update_of_ne hr]
  simp only [progress, hsame]

end Progress

/-- The counters when all replicas have completed the first `acked` requests, some replica has not
completed the next one, and none is more than a ring ahead. -/
structure Counts (counter : RequestACKCounter) (acked : Nat) (done : Nat → Nat) : Prop where
  slowest : ∀ replica < counter.numReplicas.toNat, acked ≤ done replica
  lag : ∀ replica < counter.numReplicas.toNat, done replica ≤ acked + kMaxRequestNum
  waits : progress counter.numReplicas.toNat done (acked + 1) < counter.numReplicas.toNat
  slots : ∀ id, acked < id → id ≤ acked + kMaxRequestNum →
    (counter.requestAckedNum (id % kMaxRequestNum)).toNat =
      progress counter.numReplicas.toNat done id

variable {counter : RequestACKCounter} {acked replica : Nat} {done : Nat → Nat}

theorem Counts.new {numReplicas : UInt8} (h : 0 < numReplicas.toNat) :
    Counts (.new numReplicas) 0 fun _ => 0 := by
  refine ⟨fun _ _ => Nat.le_refl 0, fun _ _ => Nat.zero_le _, ?_, ?_⟩
  · rw [progress_eq_zero fun _ _ => Nat.zero_lt_one]
    exact h
  · intro id hid _
    rw [progress_eq_zero fun _ _ => hid]
    rfl

theorem Counts.behind (h : Counts counter acked done) :
    ∃ replica < counter.numReplicas.toNat, done replica ≤ acked := by
  by_contra hnone
  refine h.waits.ne (progress_eq_iff.mpr fun r hr => ?_)
  by_contra hle
  exact hnone ⟨r, hr, by omega⟩

/-- Two requests of one slot are a ring apart. -/
theorem slot_ne {id id' : Nat} (hnear : id < id' + kMaxRequestNum)
    (hnear' : id' < id + kMaxRequestNum) (hne : id ≠ id') :
    id % kMaxRequestNum ≠ id' % kMaxRequestNum := by
  unfold kMaxRequestNum at *
  omega

/-- `Increase` returns true to the last replica that completes a request, if none is a ring
ahead. -/
theorem Counts.increase (h : Counts counter acked done)
    (hreplica : replica < counter.numReplicas.toNat)
    (hlag : done replica < acked + kMaxRequestNum) {requestId : UInt64}
    (hid : requestId.toNat = done replica + 1) :
    (counter.increase requestId).2.numReplicas = counter.numReplicas ∧
      if (counter.increase requestId).1 then
        done replica = acked ∧ Counts (counter.increase requestId).2 (acked + 1)
          (Function.update done replica (done replica + 1))
      else Counts (counter.increase requestId).2 acked
        (Function.update done replica (done replica + 1)) := by
  have hslowest := h.slowest replica hreplica
  have hcount := h.slots (done replica + 1) (Nat.lt_succ_of_le hslowest) hlag
  have hbelow : progress counter.numReplicas.toNat done (done replica + 1) <
      counter.numReplicas.toNat :=
    (progress_anti (Nat.succ_le_succ hslowest)).trans_lt h.waits
  have hnext : progress counter.numReplicas.toNat
      (Function.update done replica (done replica + 1)) (done replica + 1) =
        progress counter.numReplicas.toNat done (done replica + 1) + 1 := progress_update hreplica
  have hnum : (counter.requestAckedNum ((done replica + 1) % kMaxRequestNum) + 1).toNat =
      progress counter.numReplicas.toNat done (done replica + 1) + 1 := by
    have hlt := counter.numReplicas.toNat_lt
    rw [UInt8.toNat_add, hcount]
    exact Nat.mod_eq_of_lt (by simp; omega)
  have hdone {r : Nat} (hr : r ≠ replica) :
      Function.update done replica (done replica + 1) r = done r := Function.update_of_ne hr _ _
  unfold RequestACKCounter.increase
  dsimp only
  rw [hid]
  split
  · rename_i hlast
    rw [← UInt8.toNat_inj, hnum, ← hnext, progress_eq_iff] at hlast
    have hfirst : done replica = acked := by
      by_contra hne
      refine absurd (progress_eq_iff.mpr fun r hr => ?_) h.waits.ne
      by_cases hsame : r = replica
      · subst hsame
        omega
      · have := hlast r hr
        rw [hdone hsame] at this
        omega
    refine ⟨rfl, hfirst, ?_, ?_, ?_, ?_⟩
    · intro r hr
      have := hlast r hr
      omega
    · intro r hr
      show _ ≤ acked + 1 + kMaxRequestNum
      by_cases hsame : r = replica
      · subst hsame
        rw [Function.update_self]
        omega
      · have := h.lag r hr
        rw [hdone hsame]
        omega
    · show progress counter.numReplicas.toNat _ (acked + 1 + 1) < counter.numReplicas.toNat
      refine lt_of_le_of_ne progress_le fun hall => ?_
      have := progress_eq_iff.mp hall replica hreplica
      rw [Function.update_self] at this
      omega
    · intro id hlow hhigh
      show (Function.update counter.requestAckedNum _ 0 (id % kMaxRequestNum)).toNat =
        progress counter.numReplicas.toNat _ id
      rw [progress_update_of_ne (by omega)]
      by_cases hwrap : id = acked + 1 + kMaxRequestNum
      · subst hwrap
        rw [hfirst, Nat.add_mod_right, Function.update_self, progress_eq_zero]
        · rfl
        · intro r hr
          have := h.lag r hr
          omega
      · have hslot : id % kMaxRequestNum ≠ (done replica + 1) % kMaxRequestNum :=
          slot_ne (by omega) (by omega) (by omega)
        rw [Function.update_of_ne hslot]
        exact h.slots id (by omega) (by omega)
  · rename_i hmore
    rw [← UInt8.toNat_inj, hnum] at hmore
    refine ⟨rfl, ?_⟩
    rw [if_neg (by simp)]
    refine ⟨?_, ?_, ?_, ?_⟩
    · intro r hr
      have := h.slowest r hr
      by_cases hsame : r = replica
      · subst hsame
        rw [Function.update_self]
        omega
      · rwa [hdone hsame]
    · intro r hr
      by_cases hsame : r = replica
      · subst hsame
        rw [Function.update_self]
        exact hlag
      · rw [hdone hsame]
        exact h.lag r hr
    · show progress counter.numReplicas.toNat _ (acked + 1) < counter.numReplicas.toNat
      by_cases hfirst : acked + 1 = done replica + 1
      · rw [hfirst, hnext]
        omega
      · rw [progress_update_of_ne hfirst]
        exact h.waits
    · intro id hlow hhigh
      show (Function.update counter.requestAckedNum _ _ (id % kMaxRequestNum)).toNat =
        progress counter.numReplicas.toNat _ id
      by_cases hsame : id = done replica + 1
      · subst hsame
        rw [Function.update_self, hnum, hnext]
      · have hslot : id % kMaxRequestNum ≠ (done replica + 1) % kMaxRequestNum :=
          slot_ne (by omega) (by omega) hsame
        rw [Function.update_of_ne hslot, progress_update_of_ne hsame]
        exact h.slots id hlow hhigh

end RequestACKCounter

namespace Unicast

/-- What the client reads from its configuration, where both numbers have 32 bits, and the number
of replicas that it is started with. -/
structure Setting where
  requestSize : UInt32
  requestNum : UInt32
  numReplicas : UInt8

/-- A chunk that is posted: what `get_offset` gives, and its `request_id`. -/
structure Posted where
  offset : UInt32
  requestId : UInt64
  deriving DecidableEq

/-- The client, with what has happened so far: the requests reserved, the requests that each
replica has completed and those for which `Increase` has returned true. -/
structure Client where
  counter : RequestACKCounter
  inflightSize : UInt64
  requestId : Nat → UInt64
  queue : Nat → List Posted
  made : Nat
  completions : Nat → List UInt64
  acknowledged : List UInt64

def new (setting : Setting) : Client where
  counter := .new setting.numReplicas
  inflightSize := 0
  requestId _ := 1
  queue _ := []
  made := 0
  completions _ := []
  acknowledged := []

namespace Client

/-- The sender reserves the bytes of `num` requests. -/
def reserve (setting : Setting) (client : Client) (num : Nat) : Client :=
  { client with
    inflightSize := client.inflightSize + UInt64.ofNat num * setting.requestSize.toUInt64
    made := client.made + num }

/-- The next request is sent to one replica. Its chunks have the id 0, and the last one has the
id of the request. -/
def post (client : Client) (replica : Nat) (lengths : List UInt32) (last : UInt32) : Client :=
  { client with
    queue := Function.update client.queue replica (client.queue replica ++
      (lengths.map fun length => ⟨length, 0⟩) ++ [⟨last, client.requestId replica⟩])
    requestId := Function.update client.requestId replica (client.requestId replica + 1) }

/-- `Increase` for a chunk that ends a request. -/
def acknowledge (setting : Setting) (client : Client) (replica : Nat) (requestId : UInt64) :
    Client :=
  let (r, counter) := client.counter.increase requestId
  let client := { client with
    counter
    completions := Function.update client.completions replica
      (client.completions replica ++ [requestId]) }
  if r then
    { client with
      inflightSize := client.inflightSize - setting.requestSize.toUInt64
      acknowledged := client.acknowledged ++ [requestId] }
  else client

def onSendCompletion (setting : Setting) (client : Client) (replica : Nat) (chunk : Posted) :
    Except Stop Client :=
  if client.inflightSize ≥ chunk.offset.toUInt64 then
    if chunk.requestId ≠ 0 then pure (client.acknowledge setting replica chunk.requestId)
    else pure client
  else .error .kassertInflightSize

/-- The oldest send of a replica completes. -/
def complete (setting : Setting) (client : Client) (replica : Nat) : Except Stop Client :=
  match client.queue replica with
  | [] => pure client
  | chunk :: rest =>
      { client with queue := Function.update client.queue replica rest }.onSendCompletion
        setting replica chunk

end Client

inductive Op where
  | reserve (num : Nat)
  | post (replica : Nat) (lengths : List UInt32) (last : UInt32)
  | complete (replica : Nat)

/-- At most `REQUEST_NUM` requests are unacknowledged, and their ids have 64 bits. A request is
sent to a replica when it is reserved, in chunks that have its bytes. -/
def Enabled (setting : Setting) (client : Client) : Op → Prop
  | .reserve num =>
      client.made + num ≤ client.acknowledged.length + setting.requestNum.toNat ∧
        client.made + num < 2 ^ 64 - 1
  | .post replica lengths last =>
      replica < setting.numReplicas.toNat ∧ (client.requestId replica).toNat ≤ client.made ∧
        (lengths.map UInt32.toNat).sum + last.toNat = setting.requestSize.toNat
  | .complete replica => replica < setting.numReplicas.toNat ∧ client.queue replica ≠ []

def step (setting : Setting) (client : Client) : Op → Except Stop Client
  | .reserve num => pure (client.reserve setting num)
  | .post replica lengths last => pure (client.post replica lengths last)
  | .complete replica => client.complete setting replica

def machine (setting : Setting) : Machine Client Op Stop where
  start client := client = new setting
  enabled := Enabled setting
  step := step setting

/-- Every replica has completed the request. -/
def CompletedByAll (setting : Setting) (client : Client) (id : UInt64) : Prop :=
  ∀ replica < setting.numReplicas.toNat, id ∈ client.completions replica

instance (setting : Setting) (client : Client) (id : UInt64) :
    Decidable (CompletedByAll setting client id) :=
  inferInstanceAs (Decidable (∀ replica < _, _))

/-- The requests reserved that not all replicas have completed. -/
def outstanding (setting : Setting) (client : Client) : List UInt64 :=
  ((List.range' 1 client.made).map UInt64.ofNat).filter fun id =>
    ¬ CompletedByAll setting client id

/-- `Increase` has returned true once for each request that all replicas have completed and for no
other, `inflight_size` has the bytes of all others, and no completion fails the `kassert`. -/
structure Exact (setting : Setting) (client : Client) : Prop where
  acknowledged : ∀ id, client.acknowledged.count id =
    if CompletedByAll setting client id then 1 else 0
  inflight : (outstanding setting client).length * setting.requestSize.toNat ≤
    client.inflightSize.toNat
  kassert : ∀ replica < setting.numReplicas.toNat,
    Ends (client.complete setting replica) (fun _ => True) fun _ => False

variable {setting : Setting} {client : Client} {size made n : Nat} {requestId id : UInt64}
  {queue rest : List Posted} {completions : List UInt64} {chunk : Posted}

/-- The ids of the first `n` requests. -/
def ids (n : Nat) : List UInt64 := (List.range' 1 n).map UInt64.ofNat

@[simp] theorem ids_length : (ids n).length = n := by simp [ids]

theorem ids_succ : ids (n + 1) = ids n ++ [UInt64.ofNat (n + 1)] := by
  simp [ids, List.range'_1_concat, Nat.add_comm]

theorem mem_ids (hn : n < 2 ^ 64) : id ∈ ids n ↔ 0 < id.toNat ∧ id.toNat ≤ n := by
  simp only [ids, List.mem_map, List.mem_range'_1]
  constructor
  · rintro ⟨k, hk, rfl⟩
    rw [UInt64.toNat_ofNat_of_lt' (Nat.lt_of_lt_of_le (by omega) hn)]
    omega
  · intro hid
    exact ⟨id.toNat, by omega, UInt64.ofNat_toNat⟩

theorem nodup_ids (hn : n < 2 ^ 64) : (ids n).Nodup := by
  refine List.Nodup.map_on ?_ (List.nodup_range')
  intro a ha b hb hab
  rw [List.mem_range'_1] at ha hb
  have hval := congrArg UInt64.toNat hab
  rwa [UInt64.toNat_ofNat_of_lt' (Nat.lt_of_lt_of_le (by omega) hn),
    UInt64.toNat_ofNat_of_lt' (Nat.lt_of_lt_of_le (by omega) hn)] at hval

/-- What comes before an id in the order of the requests, and which id it is. -/
theorem ids_split {front back : List UInt64} (h : front ++ id :: back = ids n) :
    front = ids front.length ∧ id = UInt64.ofNat (front.length + 1) ∧ front.length < n := by
  obtain ⟨before, after, hrange, hfront, hback⟩ := List.map_eq_append_iff.mp h.symm
  obtain ⟨count, hcount, hbefore, hafter⟩ := List.range'_eq_append_iff.mp hrange
  have hlength : front.length = count := by
    rw [← hfront, hbefore, List.length_map, List.length_range']
  cases hleft : n - count with
  | zero =>
      rw [hafter, hleft] at hback
      cases hback
  | succ left =>
      rw [hafter, hleft, List.range'_succ, List.map_cons] at hback
      refine ⟨?_, ?_, by omega⟩
      · rw [hlength, ← hfront, hbefore]
        rfl
      · rw [← (List.cons.inj hback).1, hlength, Nat.mul_one, Nat.add_comm]

/-- The ids of the requests that end in these chunks. -/
def pending (queue : List Posted) : List UInt64 :=
  (queue.map Posted.requestId).filter (· ≠ 0)

/-- The sends of one replica: what has completed and what is posted are the requests in turn, and
the chunks of a request are followed by the one that has its id. -/
structure InOrder (size made : Nat) (requestId : UInt64) (queue : List Posted)
    (completions : List UInt64) : Prop where
  order : completions ++ pending queue = ids (requestId.toNat - 1)
  posted : 0 < requestId.toNat ∧ requestId.toNat ≤ made + 1
  ends : ∀ last, queue.getLast? = some last → last.requestId ≠ 0
  offset : ∀ chunk ∈ queue, chunk.offset.toNat ≤ size

theorem pending_append (queue rest : List Posted) :
    pending (queue ++ rest) = pending queue ++ pending rest := by
  simp [pending]

theorem InOrder.start : InOrder size 0 1 [] [] :=
  ⟨rfl, ⟨Nat.zero_lt_one, Nat.le_refl 1⟩, by simp, by simp⟩

theorem InOrder.mono (h : InOrder size made requestId queue completions) {made' : Nat}
    (hmade : made ≤ made') : InOrder size made' requestId queue completions :=
  ⟨h.order, ⟨h.posted.1, h.posted.2.trans (Nat.succ_le_succ hmade)⟩, h.ends, h.offset⟩

theorem InOrder.post (h : InOrder size made requestId queue completions)
    (hmade : made < 2 ^ 64 - 1) (hnext : requestId.toNat ≤ made) {lengths : List UInt32}
    {last : UInt32} (hsum : (lengths.map UInt32.toNat).sum + last.toNat = size) :
    InOrder size made (requestId + 1)
      (queue ++ (lengths.map fun length => ⟨length, 0⟩) ++ [⟨last, requestId⟩]) completions := by
  have hpos := h.posted.1
  have hone : (requestId + 1).toNat = requestId.toNat + 1 := by
    rw [UInt64.toNat_add]
    exact Nat.mod_eq_of_lt (by simp; omega)
  have hid : requestId ≠ 0 := by
    rintro rfl
    exact absurd hpos (Nat.lt_irrefl 0)
  have hsucc : requestId.toNat = requestId.toNat - 1 + 1 := (Nat.sub_add_cancel hpos).symm
  refine ⟨?_, by omega, ?_, ?_⟩
  · have hnone : pending (lengths.map fun length => ⟨length, 0⟩) = [] := by simp [pending]
    have hlast : pending [⟨last, requestId⟩] = [requestId] := by simp [pending, hid]
    rw [pending_append, pending_append, hnone, hlast, List.append_nil, ← List.append_assoc,
      h.order, hone, Nat.add_sub_cancel]
    conv_rhs => rw [hsucc, ids_succ, ← hsucc, UInt64.ofNat_toNat]
  · intro chunk hchunk
    rw [List.getLast?_concat] at hchunk
    cases hchunk
    exact hid
  · intro chunk hchunk
    rw [List.append_assoc, List.mem_append, List.mem_append, List.mem_map,
      List.mem_singleton] at hchunk
    rcases hchunk with hold | ⟨length, hlength, rfl⟩ | rfl
    · exact h.offset chunk hold
    · have := List.le_sum_of_mem (List.mem_map_of_mem (f := UInt32.toNat) hlength)
      show length.toNat ≤ size
      omega
    · show last.toNat ≤ size
      omega

/-- While a send is posted, its request is one that the replica has not completed. -/
theorem InOrder.length_lt (h : InOrder size made requestId queue completions)
    (hne : queue ≠ []) : completions.length < made := by
  have hid := h.ends _ (List.getLast?_eq_some_getLast hne)
  have hmem : (queue.getLast hne).requestId ∈ pending queue := by
    simp only [pending, List.mem_filter, List.mem_map]
    exact ⟨⟨_, List.getLast_mem hne, rfl⟩, by simpa using hid⟩
  have hpos := List.length_pos_of_mem hmem
  have hlength := congrArg List.length h.order
  rw [List.length_append, ids_length] at hlength
  have := h.posted.2
  omega

theorem InOrder.length_le (h : InOrder size made requestId queue completions) :
    completions.length ≤ made := by
  have hlength := congrArg List.length h.order
  rw [List.length_append, ids_length] at hlength
  have := h.posted.2
  omega

theorem InOrder.ends_tail (h : InOrder size made requestId (chunk :: rest) completions) :
    ∀ last, rest.getLast? = some last → last.requestId ≠ 0 := by
  intro last hlast
  refine h.ends last ?_
  rw [List.getLast?_cons, hlast]
  rfl

theorem InOrder.pop (h : InOrder size made requestId (chunk :: rest) completions)
    (hid : chunk.requestId = 0) : InOrder size made requestId rest completions := by
  refine ⟨?_, h.posted, h.ends_tail, fun c hc => h.offset c (List.mem_cons_of_mem _ hc)⟩
  have horder := h.order
  simpa [pending, hid] using horder

/-- The chunk that ends a request is completed. -/
theorem InOrder.complete (h : InOrder size made requestId (chunk :: rest) completions)
    (hmade : made < 2 ^ 64 - 1) (hid : chunk.requestId ≠ 0) :
    chunk.requestId.toNat = completions.length + 1 ∧
      InOrder size made requestId rest (completions ++ [chunk.requestId]) := by
  have horder := h.order
  have hpending : pending (chunk :: rest) = chunk.requestId :: pending rest := by
    simp [pending, hid]
  rw [hpending] at horder
  obtain ⟨-, hvalue, hlt⟩ := ids_split horder
  have hposted := h.posted.2
  constructor
  · have hsmall : completions.length + 1 < 2 ^ 64 := by omega
    rw [hvalue, UInt64.toNat_ofNat_of_lt' hsmall]
  · refine ⟨?_, h.posted, h.ends_tail, fun c hc => h.offset c (List.mem_cons_of_mem _ hc)⟩
    rw [List.append_assoc]
    exact horder

structure Inv (setting : Setting) (client : Client) : Prop where
  replicas : client.counter.numReplicas = setting.numReplicas
  made : client.made < 2 ^ 64 - 1
  window : client.made ≤ client.acknowledged.length + setting.requestNum.toNat
  inOrder : ∀ replica < setting.numReplicas.toNat,
    InOrder setting.requestSize.toNat client.made (client.requestId replica)
      (client.queue replica) (client.completions replica)
  acknowledged : client.acknowledged = ids client.acknowledged.length
  counts : RequestACKCounter.Counts client.counter client.acknowledged.length
    fun replica => (client.completions replica).length
  inflight : client.inflightSize.toNat +
      client.acknowledged.length * setting.requestSize.toNat =
    client.made * setting.requestSize.toNat

theorem Inv.start (h : 0 < setting.numReplicas.toNat) : Inv setting (new setting) where
  replicas := rfl
  made := (by decide : 0 < 2 ^ 64 - 1)
  window := Nat.zero_le _
  inOrder _ _ := .start
  acknowledged := rfl
  counts := .new h
  inflight := by simp [new]

theorem Inv.acked_le (h : Inv setting client) (hreplicas : 0 < setting.numReplicas.toNat) :
    client.acknowledged.length ≤ client.made :=
  (h.counts.slowest 0 (h.replicas ▸ hreplicas)).trans (h.inOrder 0 hreplicas).length_le

theorem Inv.reserve (h : Inv setting client) (hreplicas : 0 < setting.numReplicas.toNat)
    {num : Nat} (hwindow : client.made + num ≤
      client.acknowledged.length + setting.requestNum.toNat)
    (hmade : client.made + num < 2 ^ 64 - 1) : Inv setting (client.reserve setting num) := by
  have hacked := h.acked_le hreplicas
  have hinflight := h.inflight
  have hbytes := Nat.mul_le_mul_right setting.requestSize.toNat hwindow
  have hlimit := Nat.mul_lt_mul'' setting.requestNum.toNat_lt setting.requestSize.toNat_lt
  rw [Nat.add_mul, Nat.add_mul] at hbytes
  have hsum : (client.inflightSize + UInt64.ofNat num * setting.requestSize.toUInt64).toNat =
      client.inflightSize.toNat + num * setting.requestSize.toNat := by
    have hnum : num < 2 ^ 64 := by omega
    rw [UInt64.toNat_add, UInt64.toNat_mul, UInt32.toNat_toUInt64,
      UInt64.toNat_ofNat_of_lt' hnum,
      Nat.mod_eq_of_lt (by omega : num * setting.requestSize.toNat < 2 ^ 64)]
    exact Nat.mod_eq_of_lt (by omega)
  refine ⟨h.replicas, hmade, hwindow, ?_, h.acknowledged, h.counts, ?_⟩
  · exact fun replica hreplica => (h.inOrder replica hreplica).mono (Nat.le_add_right _ _)
  · show (client.inflightSize + _).toNat + _ = (client.made + num) * _
    rw [hsum, Nat.add_mul, ← hinflight]
    exact Nat.add_right_comm _ _ _

theorem Inv.post (h : Inv setting client) {replica : Nat} {lengths : List UInt32} {last : UInt32}
    (hnext : (client.requestId replica).toNat ≤ client.made)
    (hsum : (lengths.map UInt32.toNat).sum + last.toNat = setting.requestSize.toNat) :
    Inv setting (client.post replica lengths last) := by
  refine ⟨h.replicas, h.made, h.window, ?_, h.acknowledged, h.counts, h.inflight⟩
  intro other hother
  by_cases hsame : other = replica
  · subst hsame
    simp only [Client.post, Function.update_self]
    exact (h.inOrder other hother).post h.made hnext hsum
  · simp only [Client.post, Function.update_of_ne hsame]
    exact h.inOrder other hother

/-- The counter has the bytes of the request that the oldest send belongs to. -/
theorem Inv.offset_le (h : Inv setting client) {replica : Nat}
    (hreplica : replica < setting.numReplicas.toNat)
    (hqueue : client.queue replica = chunk :: rest) :
    setting.requestSize.toNat ≤ client.inflightSize.toNat ∧
      chunk.offset.toUInt64 ≤ client.inflightSize := by
  have horder := h.inOrder replica hreplica
  have hlt := horder.length_lt (by rw [hqueue]; exact List.cons_ne_nil _ _)
  have hoffset := horder.offset chunk (by rw [hqueue]; exact List.mem_cons_self)
  have hslowest := h.counts.slowest replica (h.replicas ▸ hreplica)
  have hinflight := h.inflight
  have hmore : (client.acknowledged.length + 1) * setting.requestSize.toNat ≤
      client.made * setting.requestSize.toNat := Nat.mul_le_mul_right _ (by omega)
  rw [Nat.succ_mul] at hmore
  rw [UInt64.le_iff_toNat_le, UInt32.toNat_toUInt64]
  omega

/-- The sends of one replica change. -/
theorem inOrder_update {requestId : Nat → UInt64} {queue : Nat → List Posted}
    {completions : Nat → List UInt64} {replicas replica : Nat} {done : List UInt64}
    (h : ∀ other < replicas, InOrder size made (requestId other) (queue other)
      (completions other))
    (hreplica : InOrder size made (requestId replica) rest done) :
    ∀ other < replicas, InOrder size made (requestId other)
      (Function.update queue replica rest other) (Function.update completions replica done other) := by
  intro other hother
  by_cases hsame : other = replica
  · subst hsame
    simpa only [Function.update_self] using hreplica
  · rw [Function.update_of_ne hsame, Function.update_of_ne hsame]
    exact h other hother

theorem length_update (completions : Nat → List UInt64) (replica : Nat) (id : UInt64) :
    (fun other => (Function.update completions replica
        (completions replica ++ [id]) other).length) =
      Function.update (fun other => (completions other).length) replica
        ((completions replica).length + 1) := by
  funext other
  by_cases hsame : other = replica
  · subst hsame
    simp
  · simp [Function.update_of_ne hsame]

/-- The chunk that ends a request completes at a replica that is not a whole ring ahead. -/
theorem Inv.acknowledge (h : Inv setting client) {replica : Nat}
    (hreplica : replica < setting.numReplicas.toNat)
    (hqueue : client.queue replica = chunk :: rest) (hid : chunk.requestId ≠ 0)
    (hlag : (client.completions replica).length <
      client.acknowledged.length + kMaxRequestNum) :
    Inv setting ({ client with queue := Function.update client.queue replica rest }.acknowledge
      setting replica chunk.requestId) := by
  obtain ⟨hsize, -⟩ := h.offset_le hreplica hqueue
  have horder := h.inOrder replica hreplica
  rw [hqueue] at horder
  obtain ⟨hvalue, hafter⟩ := horder.complete h.made hid
  have hinOrder := inOrder_update h.inOrder hafter
  have hdone := length_update client.completions replica chunk.requestId
  obtain ⟨hsame, hcounts⟩ := h.counts.increase (h.replicas ▸ hreplica) hlag hvalue
  unfold Client.acknowledge
  dsimp only
  split
  · rename_i hlast
    rw [if_pos hlast] at hcounts
    obtain ⟨hfirst, hcounts⟩ := hcounts
    have hsub : (client.inflightSize - setting.requestSize.toUInt64).toNat =
        client.inflightSize.toNat - setting.requestSize.toNat := by
      rw [UInt64.toNat_sub_of_le, UInt32.toNat_toUInt64]
      rw [UInt64.le_iff_toNat_le, UInt32.toNat_toUInt64]
      exact hsize
    have hid' : chunk.requestId = UInt64.ofNat (client.acknowledged.length + 1) := by
      rw [← hfirst, ← hvalue, UInt64.ofNat_toNat]
    refine ⟨hsame.trans h.replicas, h.made, ?_, hinOrder, ?_, ?_, ?_⟩
    · have := h.window
      simp only [List.length_append, List.length_singleton]
      omega
    · simp only [List.length_append, List.length_singleton, ids_succ]
      rw [← h.acknowledged, hid']
    · simp only [List.length_append, List.length_singleton, hdone]
      exact hcounts
    · have hinflight := h.inflight
      simp only [List.length_append, List.length_singleton, Nat.succ_mul, hsub]
      omega
  · rename_i hmore
    rw [if_neg hmore] at hcounts
    refine ⟨hsame.trans h.replicas, h.made, h.window, hinOrder, h.acknowledged, ?_, h.inflight⟩
    rw [hdone]
    exact hcounts

/-- One completion, of a replica that is not a whole ring ahead. -/
theorem Inv.complete (h : Inv setting client) {replica : Nat}
    (hreplica : replica < setting.numReplicas.toNat)
    (hlag : client.queue replica ≠ [] → (client.completions replica).length <
      client.acknowledged.length + kMaxRequestNum) :
    Ends (client.complete setting replica) (Inv setting) fun _ => False := by
  unfold Client.complete
  split
  · exact h
  · rename_i chunk rest hqueue
    have hkassert := (h.offset_le hreplica hqueue).2
    unfold Client.onSendCompletion
    rw [if_pos hkassert]
    split
    · rename_i hid
      have hnonempty : client.queue replica ≠ [] := by
        rw [hqueue]
        exact List.cons_ne_nil _ _
      exact h.acknowledge hreplica hqueue hid (hlag hnonempty)
    · rename_i hid
      have horder := h.inOrder replica hreplica
      rw [hqueue] at horder
      have hinOrder := inOrder_update h.inOrder (horder.pop (not_not.mp hid))
      rw [Function.update_eq_self] at hinOrder
      exact ⟨h.replicas, h.made, h.window, hinOrder, h.acknowledged, h.counts, h.inflight⟩

theorem Inv.complete_returns (h : Inv setting client) {replica : Nat}
    (hreplica : replica < setting.numReplicas.toNat) :
    Ends (client.complete setting replica) (fun _ => True) fun _ => False := by
  unfold Client.complete
  split
  · trivial
  · rename_i chunk rest hqueue
    have hkassert := (h.offset_le hreplica hqueue).2
    unfold Client.onSendCompletion
    rw [if_pos hkassert]
    split
    · trivial
    · trivial

/-- With one replica none is ahead of another, and a window of 128 requests is one ring. -/
theorem Inv.lag (h : Inv setting client)
    (hfits : setting.numReplicas = 1 ∨ setting.requestNum.toNat ≤ kMaxRequestNum) {replica : Nat}
    (hreplica : replica < setting.numReplicas.toNat) (hqueue : client.queue replica ≠ []) :
    (client.completions replica).length < client.acknowledged.length + kMaxRequestNum := by
  rcases hfits with hone | hring
  · obtain ⟨other, hother, hle⟩ := h.counts.behind
    rw [h.replicas, hone] at hother
    rw [hone] at hreplica
    have hzero : replica = 0 := Nat.lt_one_iff.mp hreplica
    have hzero' : other = 0 := Nat.lt_one_iff.mp hother
    subst hzero hzero'
    unfold kMaxRequestNum
    omega
  · have hlt := (h.inOrder replica hreplica).length_lt hqueue
    have hwindow := h.window
    omega

theorem Inv.step (h : Inv setting client) (hreplicas : 0 < setting.numReplicas.toNat)
    (hfits : setting.numReplicas = 1 ∨ setting.requestNum.toNat ≤ kMaxRequestNum) {op : Op}
    (henabled : Enabled setting client op) :
    Ends (step setting client op) (Inv setting) fun _ => False := by
  cases op with
  | reserve num => exact h.reserve hreplicas henabled.1 henabled.2
  | post replica lengths last => exact h.post henabled.2.1 henabled.2.2
  | complete replica => exact h.complete henabled.1 fun hqueue => h.lag hfits henabled.1 hqueue

theorem inv_of_reachable (hreplicas : 0 < setting.numReplicas.toNat)
    (hfits : setting.numReplicas = 1 ∨ setting.requestNum.toNat ≤ kMaxRequestNum)
    (h : (machine setting).Reachable client) : Inv setting client := by
  refine h.invariant ?_ fun _ _ _ _ hinv henabled hrun =>
    (hinv.step hreplicas hfits henabled).value hrun
  rintro _ rfl
  exact .start hreplicas

theorem ids_append {front back : List UInt64} (h : front ++ back = ids n) :
    front = ids front.length := by
  obtain ⟨before, after, hrange, hfront, -⟩ := List.map_eq_append_iff.mp h.symm
  obtain ⟨count, -, hbefore, -⟩ := List.range'_eq_append_iff.mp hrange
  have hlength : front.length = count := by
    rw [← hfront, hbefore, List.length_map, List.length_range']
  rw [hlength, ← hfront, hbefore]
  rfl

theorem Inv.completedByAll_iff (h : Inv setting client)
    (hreplicas : 0 < setting.numReplicas.toNat) :
    CompletedByAll setting client id ↔ id ∈ client.acknowledged := by
  have hmade := h.made
  have hcompletions {replica : Nat} (hreplica : replica < setting.numReplicas.toNat) :
      id ∈ client.completions replica ↔
        0 < id.toNat ∧ id.toNat ≤ (client.completions replica).length := by
    have horder := h.inOrder replica hreplica
    have hlength := horder.length_le
    rw [ids_append horder.order, mem_ids (by omega), ids_length]
  have hacked := h.acked_le hreplicas
  rw [h.acknowledged, mem_ids (by omega)]
  constructor
  · intro hall
    have hpos := ((hcompletions hreplicas).mp (hall 0 hreplicas)).1
    refine ⟨hpos, ?_⟩
    obtain ⟨replica, hreplica, hle⟩ := h.counts.behind
    rw [h.replicas] at hreplica
    have := ((hcompletions hreplica).mp (hall replica hreplica)).2
    omega
  · rintro ⟨hpos, hle⟩ replica hreplica
    have hslowest := h.counts.slowest replica (h.replicas ▸ hreplica)
    exact (hcompletions hreplica).mpr ⟨hpos, hle.trans hslowest⟩

theorem Inv.outstanding_length (h : Inv setting client)
    (hreplicas : 0 < setting.numReplicas.toNat) :
    (outstanding setting client).length + client.acknowledged.length ≤ client.made := by
  have hmade := h.made
  have hacked := h.acked_le hreplicas
  have hnodup : (outstanding setting client ++ client.acknowledged).Nodup := by
    refine List.nodup_append.mpr ⟨(nodup_ids (by omega)).filter _, ?_, ?_⟩
    · rw [h.acknowledged]
      exact nodup_ids (by omega)
    · rintro a ha b hb rfl
      have hopen := (List.mem_filter.mp ha).2
      exact absurd ((h.completedByAll_iff hreplicas).mpr hb) (by simpa using hopen)
  have hsub : outstanding setting client ++ client.acknowledged ⊆ ids client.made := by
    intro a ha
    rcases List.mem_append.mp ha with hopen | hdone
    · exact List.mem_of_mem_filter hopen
    · rw [h.acknowledged, mem_ids (by omega)] at hdone
      exact (mem_ids (by omega)).mpr ⟨hdone.1, hdone.2.trans hacked⟩
  simpa using (hnodup.subperm hsub).length_le

theorem Inv.exact (h : Inv setting client) (hreplicas : 0 < setting.numReplicas.toNat) :
    Exact setting client := by
  have hmade := h.made
  have hacked := h.acked_le hreplicas
  refine ⟨fun id => ?_, ?_, fun replica hreplica => h.complete_returns hreplica⟩
  · have hnodup : client.acknowledged.Nodup := by
      rw [h.acknowledged]
      exact nodup_ids (by omega)
    by_cases hall : CompletedByAll setting client id
    · rw [if_pos hall]
      exact List.count_eq_one_of_mem hnodup ((h.completedByAll_iff hreplicas).mp hall)
    · rw [if_neg hall]
      exact List.count_eq_zero_of_not_mem fun hmem =>
        hall ((h.completedByAll_iff hreplicas).mpr hmem)
  · have hbytes := Nat.mul_le_mul_right setting.requestSize.toNat (h.outstanding_length hreplicas)
    have hinflight := h.inflight
    rw [Nat.add_mul] at hbytes
    omega

theorem onSendCompletion_eq {replica : Nat} (hkassert : chunk.offset.toUInt64 ≤ client.inflightSize)
    (hid : chunk.requestId ≠ 0) :
    client.onSendCompletion setting replica chunk =
      .ok (client.acknowledge setting replica chunk.requestId) := by
  rw [Client.onSendCompletion, if_pos hkassert, if_pos hid]
  rfl

/-- A request of one chunk is sent to a replica that has nothing posted, and completes. -/
structure Sends (setting : Setting) (replica : Nat) (id : UInt64) (client client' : Client) :
    Prop where
  counter : client'.counter = (client.counter.increase id).2
  made : client'.made = client.made
  requestId : client'.requestId = Function.update client.requestId replica (id + 1)
  queue : client'.queue = Function.update client.queue replica []
  completions : client'.completions =
    Function.update client.completions replica (client.completions replica ++ [id])
  acknowledged : client'.acknowledged =
    if (client.counter.increase id).1 then client.acknowledged ++ [id] else client.acknowledged
  inflight : (client.counter.increase id).1 = false → client'.inflightSize = client.inflightSize

theorem sends_of_reachable (h : (machine setting).Reachable client) {replica : Nat}
    (hreplica : replica < setting.numReplicas.toNat) (hqueue : client.queue replica = [])
    (hid : client.requestId replica = id) (hpos : id ≠ 0) (hmade : id.toNat ≤ client.made)
    (hinflight : setting.requestSize.toNat ≤ client.inflightSize.toNat) :
    ∃ client', (machine setting).Reachable client' ∧ Sends setting replica id client client' := by
  have hposted := h.next (.post replica [] setting.requestSize)
    ⟨hreplica, hid ▸ hmade, by simp⟩ rfl
  have hkassert : setting.requestSize.toUInt64 ≤ client.inflightSize := by
    rw [UInt64.le_iff_toNat_le, UInt32.toNat_toUInt64]
    exact hinflight
  have hone : (client.post replica [] setting.requestSize).queue replica =
      [⟨setting.requestSize, id⟩] := by
    simp [Client.post, hqueue, hid]
  have hrun : (client.post replica [] setting.requestSize).complete setting replica =
      .ok ({ client.post replica [] setting.requestSize with
        queue := Function.update (client.post replica [] setting.requestSize).queue replica [] }
          |>.acknowledge setting replica id) := by
    unfold Client.complete
    rw [hone]
    exact onSendCompletion_eq hkassert hpos
  have hcompleted := hposted.next (.complete replica)
    ⟨hreplica, by rw [hone]; exact List.cons_ne_nil _ _⟩ hrun
  refine ⟨_, hcompleted, ?_⟩
  unfold Client.acknowledge Client.post
  dsimp only
  split
  · rename_i hlast
    refine ⟨rfl, rfl, by simp [hid], by simp, rfl, by simp [hlast], fun hfalse => ?_⟩
    rw [hlast] at hfalse
    cases hfalse
  · rename_i hmore
    exact ⟨rfl, rfl, by simp [hid], by simp, rfl, by simp [hmore], fun _ => rfl⟩

/-- The first replica has completed `count` requests and the others none. -/
structure Ahead (setting : Setting) (count : Nat) (client : Client) : Prop where
  replicas : client.counter.numReplicas = setting.numReplicas
  made : client.made = kMaxRequestNum + 1
  first : client.requestId 0 = UInt64.ofNat (count + 1)
  others : ∀ replica, replica ≠ 0 →
    client.requestId replica = 1 ∧ client.completions replica = []
  queue : ∀ replica, client.queue replica = []
  acknowledged : client.acknowledged = []
  inflight : setting.requestSize.toNat ≤ client.inflightSize.toNat
  rest : ∀ id, count < id → id ≤ kMaxRequestNum →
    client.counter.requestAckedNum (id % kMaxRequestNum) = 0
  slot : 0 < count → client.counter.requestAckedNum 1 = 1

theorem Ahead.start (hnum : kMaxRequestNum < setting.requestNum.toNat) :
    ∃ client, (machine setting).Reachable client ∧ Ahead setting 0 client := by
  have hnew : (machine setting).Reachable (new setting) := .start rfl
  have hreserved := hnew.next (.reserve (kMaxRequestNum + 1))
    ⟨by simpa [new, Nat.succ_le_iff] using hnum, (by decide : 0 + (128 + 1) < 2 ^ 64 - 1)⟩ rfl
  refine ⟨_, hreserved, rfl, rfl, rfl, fun _ _ => ⟨rfl, rfl⟩, fun _ => rfl, rfl, ?_,
    fun _ _ _ => rfl, fun hcount => absurd hcount (Nat.lt_irrefl 0)⟩
  have hbytes := setting.requestSize.toNat_lt
  show _ ≤ ((0 : UInt64) + UInt64.ofNat (128 + 1) * setting.requestSize.toUInt64).toNat
  rw [UInt64.zero_add, UInt64.toNat_mul, UInt32.toNat_toUInt64]
  have : (UInt64.ofNat (128 + 1)).toNat = 129 := rfl
  rw [this, Nat.mod_eq_of_lt (by omega)]
  omega

theorem Ahead.next {count : Nat} (h : Ahead setting count client)
    (hreach : (machine setting).Reachable client) (hreplicas : 1 < setting.numReplicas.toNat)
    (hcount : count < kMaxRequestNum) :
    ∃ client', (machine setting).Reachable client' ∧ Ahead setting (count + 1) client' := by
  unfold kMaxRequestNum at hcount
  have hvalue : (UInt64.ofNat (count + 1)).toNat = count + 1 :=
    UInt64.toNat_ofNat_of_lt' (Nat.lt_trans (by omega : count + 1 < 129) (by decide))
  have hpos : UInt64.ofNat (count + 1) ≠ 0 := by
    intro hzero
    rw [hzero] at hvalue
    cases hvalue
  obtain ⟨client', hreach', hsends⟩ := sends_of_reachable hreach (by omega) (h.queue 0) h.first
    hpos (by rw [hvalue, h.made, kMaxRequestNum]; omega) h.inflight
  have hslot := h.rest (count + 1) (Nat.lt_succ_self _) hcount
  have hopen : client.counter.requestAckedNum
      ((UInt64.ofNat (count + 1)).toNat % kMaxRequestNum) + 1 ≠ client.counter.numReplicas := by
    rw [hvalue, hslot, h.replicas]
    intro hone
    rw [← hone] at hreplicas
    exact absurd hreplicas (by decide)
  have hmore := RequestACKCounter.increase_more hopen
  rw [hvalue, hslot] at hmore
  have hcounter := hsends.counter
  rw [hmore] at hcounter
  refine ⟨client', hreach', ?_, hsends.made.trans h.made, ?_, ?_, ?_, ?_, ?_, ?_, ?_⟩
  · rw [hcounter]
    exact h.replicas
  · rw [hsends.requestId, Function.update_self]
    exact (UInt64.ofNat_add (count + 1) 1).symm
  · intro replica hne
    rw [hsends.requestId, hsends.completions, Function.update_of_ne hne, Function.update_of_ne hne]
    exact h.others replica hne
  · intro replica
    rw [hsends.queue]
    by_cases hne : replica = 0
    · subst hne
      exact Function.update_self _ _ _
    · rw [Function.update_of_ne hne]
      exact h.queue replica
  · rw [hsends.acknowledged, hmore, if_neg (by simp)]
    exact h.acknowledged
  · rw [hsends.inflight (by rw [hmore])]
    exact h.inflight
  · intro id hlow hhigh
    rw [hcounter]
    show Function.update _ _ _ _ = 0
    rw [Function.update_of_ne]
    · exact h.rest id (by omega) hhigh
    · unfold kMaxRequestNum at *
      omega
  · intro _
    rw [hcounter]
    show Function.update _ _ _ _ = 1
    by_cases hfirst : count = 0
    · subst hfirst
      exact Function.update_self _ _ _
    · rw [Function.update_of_ne]
      · exact h.slot (Nat.pos_of_ne_zero hfirst)
      · unfold kMaxRequestNum
        omega

theorem exists_ahead (hreplicas : 1 < setting.numReplicas.toNat)
    (hnum : kMaxRequestNum < setting.requestNum.toNat) {count : Nat}
    (hcount : count ≤ kMaxRequestNum) :
    ∃ client, (machine setting).Reachable client ∧ Ahead setting count client := by
  induction count with
  | zero => exact Ahead.start hnum
  | succ count ih =>
      obtain ⟨client, hreach, hahead⟩ := ih (Nat.le_of_succ_le hcount)
      exact hahead.next hreach hreplicas hcount

/-- The counter of the first request has `count` completions and one of a request 128 later;
the replicas from `count` on have completed nothing. -/
structure Mixed (setting : Setting) (count : Nat) (client : Client) : Prop where
  replicas : client.counter.numReplicas = setting.numReplicas
  made : client.made = kMaxRequestNum + 1
  others : ∀ replica, count ≤ replica →
    client.requestId replica = 1 ∧ client.completions replica = []
  queue : ∀ replica, client.queue replica = []
  acknowledged : client.acknowledged = []
  inflight : setting.requestSize.toNat ≤ client.inflightSize.toNat
  slot : (client.counter.requestAckedNum 1).toNat = count + 1

/-- `Increase` has returned true for a request that the last replica has not completed. -/
def Early (setting : Setting) (client : Client) : Prop :=
  ∃ id ∈ client.acknowledged, client.completions (setting.numReplicas.toNat - 1) = []

/-- One more completion counts for the first slot: it ends the count one replica too soon. -/
theorem mixed_or_early {replica count : Nat}
    (hreach : (machine setting).Reachable client) (hreplica : replica < setting.numReplicas.toNat)
    (hreplicas : client.counter.numReplicas = setting.numReplicas)
    (hmade : client.made = kMaxRequestNum + 1) (hrest : replica < count)
    (hcount : count < setting.numReplicas.toNat)
    (hid : client.requestId replica = id) (hpos : id ≠ 0) (hle : id.toNat ≤ kMaxRequestNum + 1)
    (hmod : id.toNat % kMaxRequestNum = 1)
    (hothers : ∀ replica, count ≤ replica →
      client.requestId replica = 1 ∧ client.completions replica = [])
    (hqueue : ∀ replica, client.queue replica = [])
    (hacknowledged : client.acknowledged = [])
    (hinflight : setting.requestSize.toNat ≤ client.inflightSize.toNat)
    (hslot : (client.counter.requestAckedNum 1).toNat = count) :
    ∃ client', (machine setting).Reachable client' ∧
      (Early setting client' ∨
        Mixed setting count client' ∧ count + 1 < setting.numReplicas.toNat) := by
  obtain ⟨client', hreach', hsends⟩ := sends_of_reachable hreach hreplica (hqueue replica) hid hpos
    (hmade ▸ hle) hinflight
  have hlt := setting.numReplicas.toNat_lt
  have hsum : (client.counter.requestAckedNum (id.toNat % kMaxRequestNum) + 1).toNat =
      count + 1 := by
    rw [hmod, UInt8.toNat_add, hslot]
    exact Nat.mod_eq_of_lt (by simp; omega)
  have hcompletions {other : Nat} (hother : count ≤ other) :
      client'.completions other = [] := by
    rw [hsends.completions, Function.update_of_ne (by omega)]
    exact (hothers other hother).2
  refine ⟨client', hreach', ?_⟩
  by_cases hlast : client.counter.requestAckedNum (id.toNat % kMaxRequestNum) + 1 =
      client.counter.numReplicas
  · have htrue := RequestACKCounter.increase_last hlast
    refine .inl ⟨id, ?_, ?_⟩
    · rw [hsends.acknowledged, htrue, if_pos rfl]
      exact List.mem_append_right _ (List.mem_singleton_self id)
    · refine hcompletions ?_
      rw [hlast, hreplicas] at hsum
      omega
  · have hmore := RequestACKCounter.increase_more hlast
    have hcounter := hsends.counter
    rw [hmore] at hcounter
    refine .inr ⟨⟨?_, hsends.made.trans hmade, ?_, ?_, ?_, ?_, ?_⟩, ?_⟩
    · rw [hcounter]
      exact hreplicas
    · intro other hother
      refine ⟨?_, hcompletions hother⟩
      rw [hsends.requestId, Function.update_of_ne (by omega)]
      exact (hothers other hother).1
    · intro other
      rw [hsends.queue]
      by_cases hsame : other = replica
      · subst hsame
        exact Function.update_self _ _ _
      · rw [Function.update_of_ne hsame]
        exact hqueue other
    · rw [hsends.acknowledged, hmore, if_neg (by simp)]
      exact hacknowledged
    · rw [hsends.inflight (by rw [hmore])]
      exact hinflight
    · rw [hcounter, ← hsum, hmod]
      simp only [Function.update_self]
    · rw [← UInt8.toNat_inj, hsum, hreplicas] at hlast
      omega

theorem Mixed.early {left count : Nat} (h : Mixed setting count client)
    (hreach : (machine setting).Reachable client)
    (hleft : setting.numReplicas.toNat = count + 1 + left) (hmore : 0 < left) :
    ∃ client', (machine setting).Reachable client' ∧ Early setting client' := by
  induction left generalizing count client with
  | zero => exact absurd hmore (Nat.lt_irrefl 0)
  | succ left ih =>
      obtain ⟨hid, -⟩ := h.others count (Nat.le_refl count)
      obtain ⟨client', hreach', hnext⟩ := mixed_or_early hreach (by omega) h.replicas h.made
        (Nat.lt_succ_self count) (by omega) hid (by decide) (by decide) (by decide)
        (fun replica hreplica => h.others replica (Nat.le_of_succ_le hreplica)) h.queue
        h.acknowledged h.inflight h.slot
      rcases hnext with hearly | ⟨hmixed, hlt⟩
      · exact ⟨client', hreach', hearly⟩
      · exact ih hmixed hreach' (by omega) (by omega)

/-- A replica that is a whole ring ahead makes `Increase` return true too early. -/
theorem exists_early (hreplicas : 1 < setting.numReplicas.toNat)
    (hnum : kMaxRequestNum < setting.requestNum.toNat) :
    ∃ client, (machine setting).Reachable client ∧ Early setting client := by
  obtain ⟨client, hreach, hahead⟩ := exists_ahead hreplicas hnum (Nat.le_refl kMaxRequestNum)
  obtain ⟨client', hreach', hnext⟩ := mixed_or_early hreach (by omega) hahead.replicas hahead.made
    Nat.zero_lt_one hreplicas hahead.first (by decide) (by decide) (by decide)
    (fun replica hreplica => hahead.others replica (Nat.ne_of_gt hreplica)) hahead.queue
    hahead.acknowledged hahead.inflight
    (by rw [hahead.slot (by decide)]; rfl)
  rcases hnext with hearly | ⟨hmixed, hlt⟩
  · exact ⟨client', hreach', hearly⟩
  · have hleft : setting.numReplicas.toNat = 1 + 1 + (setting.numReplicas.toNat - 2) := by omega
    exact hmixed.early hreach' hleft (by omega)

theorem Early.not_exact (h : Early setting client) (hreplicas : 0 < setting.numReplicas.toNat) :
    ¬ Exact setting client := by
  rintro ⟨hacknowledged, -, -⟩
  obtain ⟨id, hmem, hnone⟩ := h
  have hcount := List.count_pos_iff.mpr hmem
  have hopen : ¬ CompletedByAll setting client id := fun hall => by
    have := hall (setting.numReplicas.toNat - 1) (by omega)
    rw [hnone] at this
    cases this
  rw [hacknowledged id, if_neg hopen] at hcount
  exact absurd hcount (Nat.lt_irrefl 0)

namespace Setting

/-- The bytes that the sender lets be in flight: all of `REQUEST_NUM` requests, and for big ones
no more than half a queue of 65536 bytes each. -/
def maxInflight (setting : Setting) (big : Bool) : UInt64 :=
  let size := setting.requestNum.toUInt64 * setting.requestSize.toUInt64
  if big then if size > 4194304 then 4194304 else size else size

def inflightThreshold (setting : Setting) (big : Bool) : UInt64 :=
  let threshold := (setting.requestNum / 2).toUInt64 * setting.requestSize.toUInt64
  let most : UInt64 := if big then 4194304 else 8388608
  if threshold > most then most else threshold

def sendingDataNum (setting : Setting) (big : Bool) (inflightSizeValue : UInt64) : UInt64 :=
  (setting.maxInflight big - inflightSizeValue) / setting.requestSize.toUInt64

theorem toNat_cap (size most : UInt64) :
    (if size > most then most else size).toNat = min size.toNat most.toNat := by
  split
  · rename_i hmore
    exact (Nat.min_eq_right (Nat.le_of_lt (UInt64.lt_iff_toNat_lt.mp hmore))).symm
  · rename_i hle
    rw [gt_iff_lt, UInt64.lt_iff_toNat_lt, Nat.not_lt] at hle
    exact (Nat.min_eq_left hle).symm

theorem inflightThreshold_le (setting : Setting) (big : Bool) :
    setting.inflightThreshold big ≤ setting.maxInflight big := by
  have hhalf : (setting.requestNum / 2).toUInt64 * setting.requestSize.toUInt64 ≤
      setting.requestNum.toUInt64 * setting.requestSize.toUInt64 := by
    rw [UInt64.le_iff_toNat_le, toNat_mul_toUInt64, toNat_mul_toUInt64, UInt32.toNat_div]
    exact Nat.mul_le_mul_right _ (Nat.div_le_self _ _)
  rw [UInt64.le_iff_toNat_le] at hhalf ⊢
  unfold inflightThreshold maxInflight
  cases big with
  | false =>
      rw [if_neg Bool.false_ne_true, if_neg Bool.false_ne_true]
      dsimp only
      rw [toNat_cap]
      exact (Nat.min_le_left _ _).trans hhalf
  | true =>
      rw [if_pos rfl, if_pos rfl]
      dsimp only
      rw [toNat_cap, toNat_cap]
      exact min_le_min_right _ hhalf

theorem maxInflight_le (setting : Setting) (big : Bool) :
    (setting.maxInflight big).toNat ≤ setting.requestNum.toNat * setting.requestSize.toNat := by
  rw [← toNat_mul_toUInt64]
  unfold maxInflight
  dsimp only
  split
  · rw [toNat_cap]
    exact Nat.min_le_left _ _
  · exact Nat.le_refl _

end Setting

/-- What the sender reserves after a load keeps the window, although completions have lowered
`inflight_size` since the load. -/
theorem Inv.sendingDataNum_window (h : Inv setting client)
    (hreplicas : 0 < setting.numReplicas.toNat) (hsize : 0 < setting.requestSize) {big : Bool}
    {inflightSizeValue : UInt64} (hstale : client.inflightSize ≤ inflightSizeValue)
    (hload : inflightSizeValue ≤ setting.inflightThreshold big) :
    client.made + (setting.sendingDataNum big inflightSizeValue).toNat ≤
      client.acknowledged.length + setting.requestNum.toNat := by
  have hacked := h.acked_le hreplicas
  have hinflight := h.inflight
  have hmax := setting.maxInflight_le big
  have hle := UInt64.le_iff_toNat_le.mp (UInt64.le_trans hload (setting.inflightThreshold_le big))
  rw [UInt64.le_iff_toNat_le] at hstale
  have hnum : (setting.sendingDataNum big inflightSizeValue).toNat =
      ((setting.maxInflight big).toNat - inflightSizeValue.toNat) /
        setting.requestSize.toNat := by
    rw [Setting.sendingDataNum, UInt64.toNat_div, UInt32.toNat_toUInt64,
      UInt64.toNat_sub_of_le _ _ (UInt64.le_iff_toNat_le.mpr hle)]
  have hdiv := Nat.div_mul_le_self ((setting.maxInflight big).toNat - inflightSizeValue.toNat)
    setting.requestSize.toNat
  rw [hnum]
  refine Nat.le_of_mul_le_mul_right ?_ (UInt32.lt_iff_toNat_lt.mp hsize)
  rw [Nat.add_mul, Nat.add_mul]
  omega

/-- The acknowledgements are exact in every run if and only if there is one replica or the window
is no longer than the ring. -/
theorem request_acks_exact_iff (setting : Setting) (hone : 1 ≤ setting.numReplicas) :
    (∀ client, (machine setting).Reachable client → Exact setting client) ↔
      setting.numReplicas = 1 ∨ setting.requestNum.toNat ≤ kMaxRequestNum := by
  have hpos : 0 < setting.numReplicas.toNat := UInt8.le_iff_toNat_le.mp hone
  constructor
  · intro hall
    by_contra hbad
    rw [not_or, Nat.not_le] at hbad
    have hmore : 1 < setting.numReplicas.toNat := by
      refine lt_of_le_of_ne hpos fun hsame => hbad.1 ?_
      exact UInt8.toNat_inj.mp hsame.symm
    obtain ⟨client, hreach, hearly⟩ := exists_early hmore hbad.2
    exact hearly.not_exact hpos (hall client hreach)
  · intro hfits client hreach
    exact (inv_of_reachable hpos hfits hreach).exact hpos

theorem request_acks_exact_iff_two_replicas :
    (∀ client, (machine ⟨64, 8, 2⟩).Reachable client → Exact ⟨64, 8, 2⟩ client) ↔
      (2 : UInt8) = 1 ∨ (8 : UInt32).toNat ≤ kMaxRequestNum :=
  request_acks_exact_iff ⟨64, 8, 2⟩ (by decide)

/-- Two replicas and a window of 129 requests. -/
theorem request_acks_not_exact :
    ∃ client, (machine ⟨64, 129, 2⟩).Reachable client ∧ ¬ Exact ⟨64, 129, 2⟩ client := by
  have hreplicas : 1 < (⟨64, 129, 2⟩ : Setting).numReplicas.toNat := by decide
  obtain ⟨client, hreach, hearly⟩ := exists_early hreplicas (by decide)
  exact ⟨client, hreach, hearly.not_exact (by decide)⟩

end Unicast

end RdmaCapsule.Clients
