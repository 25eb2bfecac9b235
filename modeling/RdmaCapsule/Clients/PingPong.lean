import RdmaCapsule.Clients.RequestFill

/-! The sender loop of the ping-pong client and its send completions, in any order. The bytes
that `inflight_size` counts are those of the chunks posted and not completed and of the requests
reserved and not yet posted. -/
namespace RdmaCapsule.Clients.PingPong

open RdmaCapsule.Core RdmaCapsule.Foundation

/-- What the client reads from its configuration. -/
structure Setting where
  kRequestSize : UInt32
  kNumRequest : UInt32
  rdmaBufferSizeBytes : UInt32

/-- Where the sender is: before the load, before it reserves, at the head of the loop over the
requests reserved, or before it sends the buffers that it has filled. -/
inductive Phase where
  | idle
  | loaded (inflightSizeValue : UInt64)
  | reserved (requestIndex sendingDataNum : Nat)
  | filled (buffers : List Nat) (requestIndex sendingDataNum : Nat)

structure Client where
  buffers : SendBuffers
  inflightSize : UInt64
  requestId : UInt64
  phase : Phase
  posted : List Nat
  completed : List Nat

namespace Setting

def big (setting : Setting) : Bool := setting.kRequestSize > setting.rdmaBufferSizeBytes

def inflightThreshold (setting : Setting) : UInt64 :=
  (setting.kNumRequest / 2).toUInt64 * setting.kRequestSize.toUInt64

/-- The requests that the sender makes after a load, and their bytes. -/
def sendingData (setting : Setting) (inflightSizeValue : UInt64) : UInt64 × UInt64 :=
  let size := setting.kRequestSize.toUInt64
  let room := setting.kNumRequest.toUInt64 * size - inflightSizeValue
  if setting.big then (room / size * size / size, room / size * size)
  else (room / size, room / size * size)

end Setting

/-- The loop of `SendSmallRequests` over its buffers. -/
def fillSmall (size : UInt32) : List Nat → UInt64 → SendBuffers → UInt64 × SendBuffers
  | [], id, b => (id, b)
  | c :: rest, id, b => fillSmall size rest (id + 1) (((b.zeroFill c size).2).setRequestId c id)

namespace Client

def load (client : Client) (setting : Setting) : Client :=
  if client.inflightSize ≤ setting.inflightThreshold then
    { client with phase := .loaded client.inflightSize }
  else { client with phase := .idle }

def reserve (client : Client) (setting : Setting) (inflightSizeValue : UInt64) : Client :=
  let (sendingDataNum, sendingDataSize) := setting.sendingData inflightSizeValue
  { client with
    inflightSize := client.inflightSize + sendingDataSize
    phase := .reserved 0 sendingDataNum.toNat }

def getBuffersByNum (client : Client) (num : UInt32) : Except Stop (List Nat × SendBuffers) :=
  match client.buffers.cluster.getChunks [] num.toNat with
  | .error fault => .error (.pool fault)
  | .ok (_, buffers, cluster) => .ok (buffers, { client.buffers with cluster })

def getBuffersBySize (client : Client) (size : UInt32) : Except Stop (List Nat × SendBuffers) :=
  match client.buffers.cluster.getBuffers [] size.toUInt64 with
  | .error fault => .error (.pool fault)
  | .ok (_, buffers, cluster) => .ok (buffers, { client.buffers with cluster })

/-- One buffer for each request reserved. -/
def fillSmallRequests (client : Client) (setting : Setting) (requestIndex sendingDataNum : Nat) :
    Except Stop Client := do
  let (buffers, b) ← client.getBuffersByNum (UInt64.ofNat sendingDataNum).toUInt32
  let (requestId, b) := fillSmall setting.kRequestSize buffers client.requestId b
  pure { client with
    buffers := b
    requestId
    phase := .filled buffers requestIndex sendingDataNum }

/-- The buffers of one request. `buffers.back()` exists: the loop has filled one. -/
def fillBigRequest (client : Client) (setting : Setting) (requestIndex sendingDataNum : Nat) :
    Except Stop Client :=
  if requestIndex < sendingDataNum then do
    let (buffers, b) ← client.getBuffersBySize setting.kRequestSize
    let b ← fillRequest buffers setting.kRequestSize b
    match buffers.getLast? with
    | none => .error .emptyVector
    | some back =>
        pure { client with
          buffers := b.setRequestId back client.requestId
          requestId := client.requestId + 1
          phase := .filled buffers requestIndex sendingDataNum }
  else pure { client with phase := .idle }

/-- `server.send`, which succeeds. -/
def post (client : Client) (setting : Setting) (buffers : List Nat)
    (requestIndex sendingDataNum : Nat) : Client :=
  { client with
    posted := client.posted ++ buffers
    phase := if setting.big then .reserved (requestIndex + 1) sendingDataNum else .idle }

/-- The next step of the sender. -/
def sender (client : Client) (setting : Setting) : Except Stop Client :=
  match client.phase with
  | .idle => pure (client.load setting)
  | .loaded inflightSizeValue => pure (client.reserve setting inflightSizeValue)
  | .reserved requestIndex sendingDataNum =>
      if setting.big then client.fillBigRequest setting requestIndex sendingDataNum
      else client.fillSmallRequests setting requestIndex sendingDataNum
  | .filled buffers requestIndex sendingDataNum =>
      pure (client.post setting buffers requestIndex sendingDataNum)

/-- `OnSendCompletion`, which the dispatcher calls before the chunk is given back. -/
def onSendCompletion (client : Client) (c : Nat) : Except Stop Client :=
  let offset := (client.buffers.cluster.chunk c).getOffset.toUInt64
  if client.inflightSize ≥ offset then
    pure { client with
      inflightSize := client.inflightSize - offset
      posted := client.posted.erase c
      completed := c :: client.completed }
  else .error .kassertInflightSize

/-- `post_tx_buffer` for some of the chunks whose completions were handled. -/
def postTxBuffer (client : Client) (chunks : List Nat) : Client :=
  { client with
    buffers := { client.buffers with cluster := client.buffers.cluster.takeBack chunks }
    completed := client.completed.filter (· ∉ chunks) }

end Client

inductive Op where
  | sender
  | completion (c : Nat)
  | postTxBuffer (chunks : List Nat)

def Enabled (client : Client) : Op → Prop
  | .sender => True
  | .completion c => c ∈ client.posted
  | .postTxBuffer chunks => chunks.Nodup ∧ ∀ c ∈ chunks, c ∈ client.completed

def step (setting : Setting) (client : Client) : Op → Except Stop Client
  | .sender => client.sender setting
  | .completion c => client.onSendCompletion c
  | .postTxBuffer chunks => pure (client.postTxBuffer chunks)

/-- The runs of a client that begins with `fill(num)` on its send cluster. -/
def machine (setting : Setting) (memory : Memory) (num : UInt32) : Machine Client Op Stop where
  start client :=
    (Cluster.new setting.rdmaBufferSizeBytes).fill memory num = .ok client.buffers.cluster ∧
      client.inflightSize = 0 ∧ client.requestId = 0 ∧ client.phase = .idle ∧
      client.posted = [] ∧ client.completed = []
  enabled := Enabled
  step := step setting

namespace Phase

/-- The buffers that the sender has filled and not sent. -/
def buffers : Phase → List Nat
  | .filled buffers _ _ => buffers
  | _ => []

/-- The bytes of the requests that are reserved and not posted. -/
def reservedBytes (kRequestSize : UInt32) : Phase → Nat
  | .reserved requestIndex sendingDataNum
  | .filled _ requestIndex sendingDataNum =>
      (sendingDataNum - requestIndex) * kRequestSize.toNat
  | _ => 0

end Phase

/-- All chunks that are not back in the pool. -/
def Client.held (client : Client) : List Nat :=
  client.phase.buffers ++ (client.posted ++ client.completed)

variable {setting : Setting} {client : Client} {bufferSize made size : UInt32}
  {b b' : SendBuffers} {chunks held : List Nat}

theorem isgeLengths_congr {cluster cluster' : Cluster}
    (h : ∀ c ∈ chunks, cluster'.chunk c = cluster.chunk c) :
    isgeLengths cluster' chunks = isgeLengths cluster chunks :=
  List.map_congr_left fun c hc => by rw [h c hc]

/-- Filling chunks that the sender holds keeps the pool in order. -/
theorem fillSmall_uniform (id : UInt64) (size : UInt32)
    (h : SendPool.Uniform bufferSize made ⟨b.cluster, held⟩) (hheld : ∀ c ∈ chunks, c ∈ held) :
    SendPool.Uniform bufferSize made ⟨(fillSmall size chunks id b).2.cluster, held⟩ := by
  induction chunks generalizing id b with
  | nil => exact h
  | cons c rest ih =>
      have hfirst := h.zeroFill (hheld c List.mem_cons_self) size
      exact ih (id + 1) hfirst fun c' hc' => hheld c' (List.mem_cons_of_mem _ hc')

theorem fillRequest_uniform {remainingSize : UInt32}
    (h : SendPool.Uniform bufferSize made ⟨b.cluster, held⟩) (hheld : ∀ c ∈ chunks, c ∈ held)
    (hrun : fillRequest chunks remainingSize b = .ok b') :
    SendPool.Uniform bufferSize made ⟨b'.cluster, held⟩ := by
  induction chunks generalizing remainingSize b with
  | nil => cases hrun
  | cons c rest ih =>
      have hfirst := h.zeroFill (hheld c List.mem_cons_self) remainingSize
      unfold fillRequest at hrun
      dsimp only at hrun
      split at hrun
      · split at hrun
        · cases hrun
          exact hfirst
        · cases hrun
      · exact ih hfirst (fun c' hc' => hheld c' (List.mem_cons_of_mem _ hc')) hrun

/-- A request that fits one buffer fills as much of it as the request has. -/
theorem fillSmall_lengths (id : UInt64) (hnodup : chunks.Nodup)
    (hready : ∀ c ∈ chunks, (b.cluster.chunk c).offset = 0 ∧
      (b.cluster.chunk c).bytes = bufferSize) (hle : size ≤ bufferSize) :
    (isgeLengths (fillSmall size chunks id b).2.cluster chunks).sum =
        chunks.length * size.toNat ∧
      ∀ c ∉ chunks, (fillSmall size chunks id b).2.cluster.chunk c = b.cluster.chunk c := by
  induction chunks generalizing id b with
  | nil => exact ⟨by simp [isgeLengths], fun _ _ => rfl⟩
  | cons c rest ih =>
      obtain ⟨hhead, hrest⟩ := List.nodup_cons.mp hnodup
      obtain ⟨hoffset, hbytes⟩ := hready c List.mem_cons_self
      obtain ⟨-, hafter⟩ := zeroFill_ready hoffset size
      obtain ⟨hwrite, -⟩ := zeroFill_fills hoffset size
      have hother {c' : Nat} (hne : c' ≠ c) :
          (((b.zeroFill c size).2).setRequestId c id).cluster.chunk c' = b.cluster.chunk c' := by
        simp [SendBuffers.zeroFill, SendBuffers.setChunk, SendBuffers.setRequestId,
          Function.update_of_ne hne]
      have hready' : ∀ c' ∈ rest,
          ((((b.zeroFill c size).2).setRequestId c id).cluster.chunk c').offset = 0 ∧
          ((((b.zeroFill c size).2).setRequestId c id).cluster.chunk c').bytes = bufferSize := by
        intro c' hc'
        have hne : c' ≠ c := fun hsame => hhead (hsame ▸ hc')
        rw [hother hne]
        exact hready c' (List.mem_cons_of_mem _ hc')
      obtain ⟨htotal, hrestOther⟩ := ih (id + 1) hrest hready'
      have hfilled : ((fillSmall size (c :: rest) id b).2.cluster.chunk c).offset.toNat =
          size.toNat := by
        show ((fillSmall size rest (id + 1) _).2.cluster.chunk c).offset.toNat = size.toNat
        rw [hrestOther c hhead]
        have hmin : min bufferSize.toNat size.toNat = size.toNat :=
          Nat.min_eq_right (UInt32.le_iff_toNat_le.mp hle)
        rw [hbytes, hmin] at hwrite
        simpa [SendBuffers.zeroFill, SendBuffers.setChunk, SendBuffers.setRequestId, hafter]
          using hwrite
      constructor
      · rw [isgeLengths, List.map_cons, List.sum_cons, Chunk.getOffset, hfilled,
          List.length_cons, Nat.succ_mul, Nat.add_comm]
        exact congrArg (· + size.toNat) htotal
      · intro c' hc'
        rw [List.mem_cons, not_or] at hc'
        exact (hrestOther c' hc'.2).trans (hother hc'.1)

namespace Setting

/-- The bytes that may be in flight. -/
def limit (setting : Setting) : Nat := setting.kNumRequest.toNat * setting.kRequestSize.toNat

theorem limit_lt (setting : Setting) : setting.limit < 2 ^ 64 := by
  have := Nat.mul_lt_mul'' setting.kNumRequest.toNat_lt setting.kRequestSize.toNat_lt
  unfold limit
  omega

theorem inflightThreshold_le (setting : Setting) :
    setting.inflightThreshold.toNat ≤ setting.limit := by
  unfold inflightThreshold limit
  rw [toNat_mul_toUInt64, UInt32.toNat_div]
  exact Nat.mul_le_mul_right _ (Nat.div_le_self _ _)

/-- The new requests and what is already in flight stay within the limit. -/
theorem sendingData_toNat (setting : Setting) (hsize : 0 < setting.kRequestSize)
    {inflightSizeValue : UInt64} (hle : inflightSizeValue.toNat ≤ setting.limit) :
    (setting.sendingData inflightSizeValue).2.toNat =
        (setting.sendingData inflightSizeValue).1.toNat * setting.kRequestSize.toNat ∧
      inflightSizeValue.toNat + (setting.sendingData inflightSizeValue).2.toNat ≤
        setting.limit ∧
      (setting.sendingData inflightSizeValue).1.toNat < 2 ^ 32 := by
  have hpos : 0 < setting.kRequestSize.toNat := UInt32.lt_iff_toNat_lt.mp hsize
  have hlimit := toNat_mul_toUInt64 setting.kNumRequest setting.kRequestSize
  change _ = setting.limit at hlimit
  have hlt := setting.limit_lt
  have hroom : (setting.kNumRequest.toUInt64 * setting.kRequestSize.toUInt64 -
      inflightSizeValue).toNat = setting.limit - inflightSizeValue.toNat := by
    rw [UInt64.toNat_sub_of_le _ _ (by rw [UInt64.le_iff_toNat_le, hlimit]; exact hle), hlimit]
  have hdiv := Nat.div_mul_le_self (setting.limit - inflightSizeValue.toNat)
    setting.kRequestSize.toNat
  have hcount : (setting.limit - inflightSizeValue.toNat) / setting.kRequestSize.toNat <
      2 ^ 32 := by
    apply Nat.lt_of_le_of_lt (Nat.div_le_div_right (Nat.sub_le _ _))
    rw [limit, Nat.mul_div_cancel _ hpos]
    exact setting.kNumRequest.toNat_lt
  have hbytes : ((setting.kNumRequest.toUInt64 * setting.kRequestSize.toUInt64 -
      inflightSizeValue) / setting.kRequestSize.toUInt64 * setting.kRequestSize.toUInt64).toNat =
        (setting.limit - inflightSizeValue.toNat) / setting.kRequestSize.toNat *
          setting.kRequestSize.toNat := by
    rw [UInt64.toNat_mul, UInt64.toNat_div, hroom, UInt32.toNat_toUInt64,
      Nat.mod_eq_of_lt (by omega)]
  unfold sendingData
  dsimp only
  split
  · rw [UInt64.toNat_div, hbytes, UInt32.toNat_toUInt64, Nat.mul_div_cancel _ hpos]
    exact ⟨rfl, by omega, hcount⟩
  · rw [hbytes, UInt64.toNat_div, hroom, UInt32.toNat_toUInt64]
    exact ⟨rfl, by omega, hcount⟩

end Setting

/-- The bytes of some chunks. -/
def offsets (b : SendBuffers) (chunks : List Nat) : Nat := (isgeLengths b.cluster chunks).sum

/-- What the sender relies on in each phase. -/
def Sound (setting : Setting) (client : Client) : Prop :=
  match client.phase with
  | .idle => True
  | .loaded inflightSizeValue =>
      client.inflightSize.toNat ≤ inflightSizeValue.toNat ∧
        inflightSizeValue.toNat ≤ setting.inflightThreshold.toNat
  | .reserved requestIndex sendingDataNum =>
      sendingDataNum < 2 ^ 32 ∧ (setting.big = false → requestIndex = 0)
  | .filled buffers requestIndex sendingDataNum =>
      sendingDataNum < 2 ^ 32 ∧
        if setting.big then requestIndex < sendingDataNum ∧
          offsets client.buffers buffers = setting.kRequestSize.toNat
        else requestIndex = 0 ∧
          offsets client.buffers buffers = sendingDataNum * setting.kRequestSize.toNat

structure Inv (setting : Setting) (client : Client) : Prop where
  pool : Stocked setting.rdmaBufferSizeBytes ⟨client.buffers.cluster, client.held⟩
  total : client.inflightSize.toNat =
    offsets client.buffers client.posted + client.phase.reservedBytes setting.kRequestSize
  within : client.inflightSize.toNat ≤ setting.limit
  sound : Sound setting client

theorem offsets_append (b : SendBuffers) (chunks rest : List Nat) :
    offsets b (chunks ++ rest) = offsets b chunks + offsets b rest := by
  simp [offsets, isgeLengths]

theorem offsets_erase (b : SendBuffers) {c : Nat} (hc : c ∈ chunks) :
    (b.cluster.chunk c).getOffset.toNat + offsets b (chunks.erase c) = offsets b chunks := by
  have hperm := ((List.perm_cons_erase hc).map
    fun c => (b.cluster.chunk c).getOffset.toNat).sum_eq
  simpa [offsets, isgeLengths] using hperm.symm

theorem offsets_congr (h : ∀ c ∈ chunks, b'.cluster.chunk c = b.cluster.chunk c) :
    offsets b' chunks = offsets b chunks :=
  congrArg List.sum (isgeLengths_congr h)

theorem Inv.start {memory : Memory} {num : UInt32}
    (h : (machine setting memory num).start client) : Inv setting client := by
  obtain ⟨hfill, hinflight, -, hphase, hposted, hcompleted⟩ := h
  have hheld : client.held = [] := by
    rw [Client.held, hphase, hposted, hcompleted]
    rfl
  refine ⟨Stocked.start hfill hheld, ?_, ?_, ?_⟩
  · rw [hinflight, hposted, hphase]
    rfl
  · rw [hinflight]
    exact Nat.zero_le _
  · rw [Sound, hphase]
    trivial

/-- The load is not above the limit, so that what is left of it does not wrap. -/
theorem Inv.loaded_le (h : Inv setting client) {inflightSizeValue : UInt64}
    (hphase : client.phase = .loaded inflightSizeValue) :
    client.inflightSize.toNat ≤ inflightSizeValue.toNat ∧
      inflightSizeValue.toNat ≤ setting.limit := by
  have hsound := h.sound
  rw [Sound, hphase] at hsound
  exact ⟨hsound.1, hsound.2.trans setting.inflightThreshold_le⟩

theorem Inv.load (h : Inv setting client) (hphase : client.phase = .idle) :
    Inv setting (client.load setting) := by
  have hpool := h.pool
  have htotal := h.total
  rw [Client.held, hphase] at hpool
  rw [hphase] at htotal
  unfold Client.load
  split
  · rename_i hle
    exact ⟨hpool, htotal, h.within, Nat.le_refl _, UInt64.le_iff_toNat_le.mp hle⟩
  · exact ⟨hpool, htotal, h.within, trivial⟩

theorem Inv.reserve (h : Inv setting client) (hsize : 0 < setting.kRequestSize)
    {inflightSizeValue : UInt64} (hphase : client.phase = .loaded inflightSizeValue) :
    Inv setting (client.reserve setting inflightSizeValue) := by
  obtain ⟨hstale, hle⟩ := h.loaded_le hphase
  obtain ⟨hbytes, hwithin, hcount⟩ := setting.sendingData_toNat hsize hle
  have hpool := h.pool
  have htotal := h.total
  have hlt := setting.limit_lt
  rw [Client.held, hphase] at hpool
  rw [hphase] at htotal
  have hsum : (client.inflightSize + (setting.sendingData inflightSizeValue).2).toNat =
      client.inflightSize.toNat + (setting.sendingData inflightSizeValue).2.toNat := by
    rw [UInt64.toNat_add, Nat.mod_eq_of_lt (by omega)]
  refine ⟨hpool, ?_, ?_, hcount, fun _ => rfl⟩
  · show (client.inflightSize + (setting.sendingData inflightSizeValue).2).toNat = _
    rw [hsum, htotal, hbytes]
    rfl
  · show (client.inflightSize + (setting.sendingData inflightSizeValue).2).toNat ≤ _
    rw [hsum]
    omega

theorem Inv.post (h : Inv setting client) {buffers : List Nat} {requestIndex sendingDataNum : Nat}
    (hphase : client.phase = .filled buffers requestIndex sendingDataNum) :
    Inv setting (client.post setting buffers requestIndex sendingDataNum) := by
  have hpool := h.pool
  have htotal := h.total
  have hsound := h.sound
  rw [Client.held, hphase] at hpool
  rw [hphase] at htotal
  rw [Sound, hphase] at hsound
  obtain ⟨hcount, hbytes⟩ := hsound
  have hheld : (client.post setting buffers requestIndex sendingDataNum).held =
      (client.posted ++ buffers) ++ client.completed := by
    unfold Client.held Client.post
    dsimp only
    split
    · rfl
    · rfl
  refine ⟨hheld ▸ hpool.post, ?_, h.within, ?_⟩
  · show client.inflightSize.toNat = offsets client.buffers (client.posted ++ buffers) +
      Phase.reservedBytes _ (if setting.big then _ else _)
    rw [htotal, offsets_append, Nat.add_assoc]
    congr 1
    split at hbytes
    · rename_i hbig
      rw [if_pos hbig, hbytes.2]
      show (sendingDataNum - requestIndex) * _ = _ + (sendingDataNum - (requestIndex + 1)) * _
      have hnext : sendingDataNum - requestIndex = sendingDataNum - (requestIndex + 1) + 1 := by
        omega
      rw [hnext, Nat.succ_mul, Nat.add_comm]
    · rename_i hsmall
      rw [if_neg hsmall, hbytes.2, hbytes.1]
      rfl
  · unfold Sound Client.post
    dsimp only
    by_cases hbig : setting.big
    · rw [if_pos hbig]
      exact ⟨hcount, fun hsmall => by simp [hbig] at hsmall⟩
    · rw [if_neg hbig]
      trivial

/-- Chunks that were free are filled; no other chunk changes. -/
theorem Inv.filled (h : Inv setting client) {requestIndex sendingDataNum : Nat}
    (hphase : client.phase = .reserved requestIndex sendingDataNum) {buffers : List Nat}
    {requestId : UInt64}
    (hpool : Stocked setting.rdmaBufferSizeBytes ⟨b.cluster, buffers ++ client.held⟩)
    (hother : ∀ c ∉ buffers, b.cluster.chunk c = client.buffers.cluster.chunk c)
    (hbytes : if setting.big then requestIndex < sendingDataNum ∧
        offsets b buffers = setting.kRequestSize.toNat
      else requestIndex = 0 ∧
        offsets b buffers = sendingDataNum * setting.kRequestSize.toNat) :
    Inv setting { client with
      buffers := b
      requestId
      phase := .filled buffers requestIndex sendingDataNum } := by
  have htotal := h.total
  have hsound := h.sound
  rw [Client.held, hphase] at hpool
  rw [hphase] at htotal
  rw [Sound, hphase] at hsound
  refine ⟨hpool, ?_, h.within, hsound.1, hbytes⟩
  have hsame : offsets b client.posted = offsets client.buffers client.posted := by
    refine offsets_congr fun c hc => hother c fun hmem => ?_
    have hapart := (List.nodup_append.mp hpool.nodup).2.2
    exact hapart c hmem c (List.mem_append_right _ (List.mem_append_left _ hc)) rfl
  rw [hsame]
  exact htotal

theorem Inv.fillBigRequest (h : Inv setting client) (hsize : 0 < setting.kRequestSize)
    (hbig : setting.big = true) {requestIndex sendingDataNum : Nat}
    (hphase : client.phase = .reserved requestIndex sendingDataNum) :
    Ends (client.fillBigRequest setting requestIndex sendingDataNum) (Inv setting)
      fun stop => ∃ fault, stop = .pool fault := by
  unfold Client.fillBigRequest
  split
  · rename_i hmore
    unfold Client.getBuffersBySize
    cases hrun : client.buffers.cluster.getBuffers [] setting.kRequestSize.toUInt64 with
    | error fault => exact ⟨fault, rfl⟩
    | ok result =>
        obtain ⟨hnonzero, -⟩ := h.pool.getBuffers hrun
        obtain ⟨made, huniform⟩ := h.pool.uniform hnonzero
        have hfits := getBuffers_fits huniform hsize hrun
        obtain ⟨buffers, cluster, b, htakes, hget, hfill, hsplit⟩ :=
          getBuffers_fillRequest huniform (UInt32.le_iff_toNat_le.mpr
            (UInt32.lt_iff_toNat_lt.mp hsize)) hfits client.buffers.requestId
        cases hrun.symm.trans hget
        have hchunk : cluster.chunk = client.buffers.cluster.chunk := htakes.chunk_eq
        have hfilled := fillRequest_uniform (b := ⟨cluster, client.buffers.requestId⟩)
          (huniform.takes htakes) (fun c hc => List.mem_append_left _ hc) hfill
        show Ends ((fillRequest buffers setting.kRequestSize
          ⟨cluster, client.buffers.requestId⟩) >>= _) _ _
        rw [hfill]
        cases hlast : buffers.getLast? with
        | none =>
            rw [List.getLast?_eq_none_iff] at hlast
            subst hlast
            cases hfill
        | some back =>
            show Ends (.ok _) _ _
            refine h.filled hphase (.inr ⟨made, hfilled⟩) ?_ ?_
            · intro c hc
              exact (hsplit.others c hc).1.trans (congrFun hchunk c)
            · rw [if_pos hbig]
              exact ⟨hmore, hsplit.total⟩
  · rename_i hdone
    have hpool := h.pool
    have htotal := h.total
    rw [Client.held, hphase] at hpool
    rw [hphase, Phase.reservedBytes, Nat.sub_eq_zero_of_le (Nat.le_of_not_gt hdone),
      Nat.zero_mul] at htotal
    exact ⟨hpool, htotal, h.within, trivial⟩

theorem Inv.fillSmallRequests (h : Inv setting client) (hsize : 0 < setting.kRequestSize)
    (hsmall : setting.big = false) {requestIndex sendingDataNum : Nat}
    (hphase : client.phase = .reserved requestIndex sendingDataNum) :
    Ends (client.fillSmallRequests setting requestIndex sendingDataNum) (Inv setting)
      fun stop => ∃ fault, stop = .pool fault := by
  have hsound := h.sound
  rw [Sound, hphase] at hsound
  obtain ⟨hcount, hfirst⟩ := hsound
  have hle : setting.kRequestSize ≤ setting.rdmaBufferSizeBytes := by
    simpa [Setting.big] using hsmall
  have hnum : (UInt64.ofNat sendingDataNum).toUInt32.toNat = sendingDataNum := by
    rw [UInt64.toNat_toUInt32, UInt64.toNat_ofNat', Nat.mod_eq_of_lt (by omega : _ < 2 ^ 64),
      Nat.mod_eq_of_lt hcount]
  unfold Client.fillSmallRequests Client.getBuffersByNum
  rw [hnum]
  cases hrun : client.buffers.cluster.getChunks [] sendingDataNum with
  | error fault => exact ⟨fault, rfl⟩
  | ok result =>
      have hnonzero : setting.rdmaBufferSizeBytes ≠ 0 :=
        UInt32.pos_iff_ne_zero.mp (UInt32.lt_of_lt_of_le hsize hle)
      obtain ⟨made, huniform⟩ := h.pool.uniform hnonzero
      have htakes := (Cluster.getChunks_ends [] sendingDataNum _).value hrun
      have hafter := huniform.takes htakes
      obtain ⟨-, hlength, hnodup, hready⟩ := huniform.granted htakes
      obtain ⟨num, buffers, cluster⟩ := result
      have hchunk : cluster.chunk = client.buffers.cluster.chunk := htakes.chunk_eq
      dsimp only at hlength hnodup hready hafter
      obtain ⟨hbytes, hother⟩ := fillSmall_lengths client.requestId
        (b := { client.buffers with cluster }) hnodup hready hle
      have hfilled := fillSmall_uniform client.requestId setting.kRequestSize
        (b := { client.buffers with cluster }) hafter fun c hc => List.mem_append_left _ hc
      refine h.filled hphase (.inr ⟨made, hfilled⟩) ?_ ?_
      · intro c hc
        exact (hother c hc).trans (congrFun hchunk c)
      · rw [if_neg (by simp [hsmall])]
        exact ⟨hfirst hsmall, hlength ▸ hbytes⟩

/-- The counter has the bytes of every chunk that is posted. -/
theorem Inv.offset_le (h : Inv setting client) {c : Nat} (hc : c ∈ client.posted) :
    (client.buffers.cluster.chunk c).getOffset.toNat ≤ client.inflightSize.toNat := by
  have herase := offsets_erase client.buffers hc
  have htotal := h.total
  omega

theorem Inv.onSendCompletion (h : Inv setting client) {c : Nat} (hc : c ∈ client.posted) :
    Ends (client.onSendCompletion c) (Inv setting) fun _ => False := by
  have herase := offsets_erase client.buffers hc
  have hle : (client.buffers.cluster.chunk c).getOffset.toUInt64 ≤ client.inflightSize := by
    rw [UInt64.le_iff_toNat_le, UInt32.toNat_toUInt64]
    exact h.offset_le hc
  have hsub : (client.inflightSize -
      (client.buffers.cluster.chunk c).getOffset.toUInt64).toNat =
        client.inflightSize.toNat - (client.buffers.cluster.chunk c).getOffset.toNat := by
    rw [UInt64.toNat_sub_of_le _ _ hle, UInt32.toNat_toUInt64]
  have htotal := h.total
  unfold Client.onSendCompletion
  dsimp only
  rw [if_pos hle]
  refine ⟨h.pool.complete hc, ?_, ?_, ?_⟩
  · show (client.inflightSize - _).toNat = _
    rw [hsub]
    show _ = offsets client.buffers (client.posted.erase c) +
      client.phase.reservedBytes setting.kRequestSize
    omega
  · show (client.inflightSize - _).toNat ≤ _
    rw [hsub]
    exact (Nat.sub_le _ _).trans h.within
  · have hsound := h.sound
    unfold Sound at hsound ⊢
    dsimp only
    split at hsound
    · trivial
    · refine ⟨?_, hsound.2⟩
      rw [hsub]
      exact (Nat.sub_le _ _).trans hsound.1
    · exact hsound
    · exact hsound

theorem Inv.postTxBuffer (h : Inv setting client) (hnodup : chunks.Nodup)
    (hcompleted : ∀ c ∈ chunks, c ∈ client.completed) :
    Inv setting (client.postTxBuffer chunks) := by
  obtain ⟨hbuffers, hposted⟩ := h.pool.apart hcompleted
  have hkeeps {list : List Nat} (hapart : ∀ c ∈ list, c ∉ chunks) :
      offsets (client.postTxBuffer chunks).buffers list = offsets client.buffers list := by
    refine offsets_congr fun c hc => ?_
    show (client.buffers.cluster.takeBack chunks).chunk c = _
    rw [SendPool.takeBack_chunk, if_neg (hapart c hc)]
  refine ⟨h.pool.giveBack hnodup hcompleted, ?_, h.within, ?_⟩
  · show client.inflightSize.toNat = offsets _ client.posted + client.phase.reservedBytes _
    rw [hkeeps hposted]
    exact h.total
  · have hsound := h.sound
    unfold Sound at hsound ⊢
    dsimp only [Client.postTxBuffer] at hkeeps ⊢
    split at hsound
    · trivial
    · exact hsound
    · exact hsound
    · rename_i hphase
      rw [hphase] at hbuffers
      have hbytes := hkeeps hbuffers
      dsimp only [Phase.buffers] at hbytes
      rw [hbytes]
      exact hsound

/-- The process stops only where the pool has too few chunks. -/
theorem Inv.step (h : Inv setting client) (hsize : 0 < setting.kRequestSize) {op : Op}
    (henabled : Enabled client op) :
    Ends (step setting client op) (Inv setting)
      fun stop => op = .sender ∧ ∃ fault, stop = .pool fault := by
  cases op with
  | sender =>
      show Ends (client.sender setting) _ _
      unfold Client.sender
      split
      · rename_i hphase
        exact h.load hphase
      · rename_i hphase
        exact h.reserve hsize hphase
      · rename_i hphase
        split
        · rename_i hbig
          exact (h.fillBigRequest hsize hbig hphase).mono (fun _ hinv => hinv)
            fun _ hpool => ⟨rfl, hpool⟩
        · rename_i hsmall
          have hsmall' : setting.big = false := by simpa using hsmall
          exact (h.fillSmallRequests hsize hsmall' hphase).mono (fun _ hinv => hinv)
            fun _ hpool => ⟨rfl, hpool⟩
      · rename_i hphase
        exact h.post hphase
  | completion c =>
      exact (h.onSendCompletion henabled).mono (fun _ hinv => hinv) fun _ hfalse => hfalse.elim
  | postTxBuffer chunks => exact h.postTxBuffer henabled.1 henabled.2

theorem inv_of_reachable {memory : Memory} {num : UInt32} (hsize : 0 < setting.kRequestSize)
    (h : (machine setting memory num).Reachable client) : Inv setting client :=
  h.invariant (fun _ hstart => Inv.start hstart)
    fun _ _ _ _ hinv henabled hrun => (hinv.step hsize henabled).value hrun

end RdmaCapsule.Clients.PingPong
