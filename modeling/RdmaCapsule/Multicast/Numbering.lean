import Mathlib
import RdmaCapsule.Multicast.StateMachine

/-! The numbers of the groups. The daemon counts up from a random number below 10000 and gives
the next number to a client with its first message, by which it means a message of a
connection whose number is 0. The switch has no group 2. -/
namespace RdmaCapsule.Multicast

open RdmaCapsule.Core RdmaCapsule.Foundation

/-- What the constructor computes from the address of the machine and from `rand()`. -/
def firstMcId (sAddr rand : UInt32) : McId := ((sAddr <<< (12 : UInt32)) + rand) % 10000

namespace Daemon

/-- The number that a step gives out, and the client that gets it. -/
def gives (d : Daemon) : Op → Option (Nat × McId)
  | .clientReadable c _ _ _ =>
      if (d.conns c).map (·.mcId) = some 0 then some (c, d.mMcId) else none
  | _ => none

/-- A reply to a client is one about a group that is in the table, unless that is group 2. -/
def Tabled (d : Daemon) : Prop :=
  ∀ mcId msg, .toClient mcId msg ∈ d.log → mcId ≠ 2 → ∃ entry ∈ d.table, entry.dqpNum = mcId

end Daemon

/-- A daemon, the clients that it has heard, and the numbers that it has given. -/
structure Numbering where
  d : Daemon
  first : McId
  clients : List Nat
  given : List (Nat × McId)

namespace Numbering

def heard (clients : List Nat) : Daemon.Op → List Nat
  | .clientReadable c _ _ _ => if c ∈ clients then clients else clients ++ [c]
  | _ => clients

def step (g : Numbering) (op : Daemon.Op) : Except Stop Numbering := do
  let d ← g.d.step op
  pure { g with
    d
    clients := heard g.clients op
    given := g.given ++ (g.d.gives op).toList }

/-- `rand()` is less than `2^31`. -/
structure Start (g : Numbering) : Prop where
  daemon : g.d.Start
  next : g.d.mMcId = g.first
  first : ∃ sAddr rand, rand.toNat < 2 ^ 31 ∧ g.first = firstMcId sAddr rand
  clients : g.clients = []
  given : g.given = []

def machine : Machine Numbering Daemon.Op Stop where
  start := Start
  enabled g op := g.d.Enabled op
  step := step

/-- Each client that has been heard has one number and keeps it, all numbers are different, no
one has the number 0 or 2, and no client has had a reply about a group that is not in the
table. -/
structure Usable (g : Numbering) : Prop where
  one : ∀ c ∈ g.clients, ∃ conn, g.d.conns c = some conn ∧
    g.given.filter (·.1 = c) = [(c, conn.mcId)]
  distinct : (g.given.map (·.2)).Nodup
  nonzero : ∀ p ∈ g.given, p.2 ≠ 0
  admitted : ∀ p ∈ g.given, p.2 ≠ 2
  replied : ∀ mcId msg, .toClient mcId msg ∈ g.d.log →
    ∃ entry ∈ g.d.table, entry.dqpNum = mcId

end Numbering

namespace Daemon

variable {d d' : Daemon} {c : Nat} {conn : Conn} {mcId : McId} {mcState : McState}

/-- A step that opens no connection and no group. -/
structure SameNumbers (d d' : Daemon) : Prop where
  next : d'.mMcId = d.mMcId
  conns : ∀ {c conn'}, d'.conns c = some conn' → ∃ conn, d.conns c = some conn ∧
    conn.mcId = conn'.mcId ∧ conn.isServer = conn'.isServer
  kept : ∀ {c conn}, d.conns c = some conn → ∃ conn', d'.conns c = some conn' ∧
    conn'.mcId = conn.mcId ∧ conn'.isServer = conn.isServer
  connections : d'.multicastConnections = d.multicastConnections
  tabled : d.Tabled → d'.Tabled

theorem SameNumbers.of_conns (hconns : d'.conns = d.conns) (hnext : d'.mMcId = d.mMcId)
    (hconnections : d'.multicastConnections = d.multicastConnections)
    (htabled : d.Tabled → d'.Tabled) : d.SameNumbers d' where
  next := hnext
  conns hconn := ⟨_, hconns ▸ hconn, rfl, rfl⟩
  kept hconn := ⟨_, hconns ▸ hconn, rfl, rfl⟩
  connections := hconnections
  tabled := htabled

theorem Tabled.append (h : d.Tabled) {new : List Event} (hlog : d'.log = d.log ++ new)
    (htable : ∀ entry ∈ d.table, entry ∈ d'.table)
    (hnew : ∀ mcId msg, .toClient mcId msg ∈ new → mcId ≠ 2 →
      ∃ entry ∈ d'.table, entry.dqpNum = mcId) : d'.Tabled := by
  intro mcId msg hmem hid
  rw [hlog] at hmem
  rcases List.mem_append.mp hmem with hold | hnew'
  · obtain ⟨entry, hentry, hdqp⟩ := h mcId msg hold hid
    exact ⟨entry, htable entry hentry, hdqp⟩
  · exact hnew mcId msg hnew' hid

theorem Heard.sameNumbers {i : Fin 2} {mcCmMeta : McMeta}
    (heard : d.Heard mcId mcState i mcCmMeta d') : d.SameNumbers d' := by
  cases heard with
  | early hinit => exact .of_conns rfl rfl rfl fun h => h
  | acked hsent hmore =>
      exact .of_conns rfl rfl rfl fun h => h.append rfl (fun _ hentry => hentry) (by simp)
  | @last hsent hall client conn₀ hclient hconn args hargs =>
      refine .of_conns rfl rfl rfl fun h => ?_
      have hlog : d.log ++ [Event.toServer mcId i (mcCmMeta.serverMsg i)] ++
          [Event.groupAdd args] ++ [Event.toClient mcId (mcCmMeta.clientMsg mcId)] =
          d.log ++ [Event.toServer mcId i (mcCmMeta.serverMsg i), Event.groupAdd args,
            Event.toClient mcId (mcCmMeta.clientMsg mcId)] := by simp
      have hid : args.dqpNum = mcId := by rw [hargs]; rfl
      refine h.append hlog (fun entry hentry => ?_) fun mcId' msg hmem hne => ?_
      · change entry ∈ multicastGroupAdd args d.table
        unfold multicastGroupAdd
        split
        · exact hentry
        · exact List.mem_append_left _ hentry
      · have hsame : mcId' = mcId := by
          simp only [List.mem_cons, reduceCtorEq, false_or, List.not_mem_nil, or_false] at hmem
          cases hmem
          rfl
        subst hsame
        refine ⟨args, ?_, hid⟩
        change args ∈ multicastGroupAdd args d.table
        rw [multicastGroupAdd, if_neg (hid.trans_ne hne)]
        exact List.mem_append_right _ List.mem_cons_self

theorem greeted_sameNumbers {i : Fin 2} (hconn : d.conns c = some conn) :
    d.SameNumbers ((d.greeted mcId mcState i).markWritable c) where
  next := rfl
  conns {c' conn'} hconn' := by
    by_cases hc : c' = c
    · subst hc
      have hmarked : some { conn with writable := true } = some conn' := by
        rw [← hconn']
        simp [greeted, markWritable, setMeta, setState, record, hconn]
      cases hmarked
      exact ⟨conn, hconn, rfl, rfl⟩
    · exact ⟨conn', (Function.update_of_ne hc ..).symm.trans hconn', rfl, rfl⟩
  kept {c' conn'} hconn' := by
    by_cases hc : c' = c
    · subst hc
      cases hconn.symm.trans hconn'
      refine ⟨{ conn with writable := true }, ?_, rfl, rfl⟩
      simp [greeted, markWritable, setMeta, setState, record, hconn]
    · exact ⟨conn', (Function.update_of_ne hc ..).trans hconn', rfl, rfl⟩
  connections := rfl
  tabled h := h.append rfl (fun _ hentry => hentry) (by simp)

/-- What a step does to the connections and their numbers. -/
inductive Numbers (d : Daemon) : Op → Daemon → Prop where
  | accept {c : Nat} {peerAddr : EntityAddr} (hfree : d.conns c = none) :
      Numbers d (.accept c peerAddr) (d.accept c peerAddr)
  | opened {c c₁ c₂ : Nat} {conn : Conn} {msg : CmMsg} (hasks : d.Asks c conn c₁ c₂)
      (hzero : conn.mcId = 0) :
      Numbers d (.clientReadable c msg c₁ c₂) (d.opened c conn msg c₁ c₂)
  | same {op : Op} {d' : Daemon} (hsame : d.SameNumbers d')
      (hold : ∀ c msg c₁ c₂, op = .clientReadable c msg c₁ c₂ →
        ∃ conn, d.conns c = some conn ∧ conn.isServer = false ∧ conn.mcId ≠ 0) :
      Numbers d op d'

theorem Inv.numbers (h : d.Inv) {op : Op} (henabled : d.Enabled op) :
    Ends (d.step op) (d.Numbers op) fun _ => True := by
  cases op with
  | accept c peerAddr => exact .accept henabled
  | clientReadable c msg c₁ c₂ =>
      obtain ⟨⟨conn, hconn, hclient⟩, hne, hc₁, hc₂⟩ := henabled
      change Ends (d.processClientReadable c msg c₁ c₂) _ _
      unfold processClientReadable
      rw [conn_eq hconn, ok_bind]
      split
      · rename_i hzero
        refine (openGroup_ends d c conn msg c₁ c₂).mono ?_ fun _ _ => trivial
        rintro d' ⟨-, rfl⟩
        exact .opened ⟨hconn, hclient, hne, hc₁, hc₂⟩ hzero
      · rename_i hold
        dsimp only
        split
        · trivial
        · split
          · trivial
          · refine .same (.of_conns rfl rfl rfl fun htabled => htabled) ?_
            intro c' msg' c₁' c₂' hop
            cases hop
            exact ⟨conn, hconn, hclient, hold⟩
  | clientWriteable c =>
      exact .same (.of_conns rfl rfl rfl fun htabled => htabled) fun _ _ _ _ hop => nomatch hop
  | serverReadable c msg toServer toClient =>
      obtain ⟨conn, hconn, hserver⟩ := henabled
      obtain ⟨connections, mcState, i, hserves⟩ := h.serves hconn hserver
      refine (hserves.readable msg toServer toClient).mono ?_ fun _ _ => trivial
      exact fun d' heard => .same heard.sameNumbers fun _ _ _ _ hop => nomatch hop
  | serverWriteable c answer =>
      obtain ⟨conn, hconn, hserver, hfirst⟩ := henabled
      obtain ⟨connections, mcState, i, hserves⟩ := h.serves hconn hserver
      obtain ⟨hclient, -, -⟩ := hserves.received hfirst
      refine ((hserves.writeable hclient answer).mono (fun _ => id) fun _ _ => trivial).bind ?_
      rintro _ rfl
      exact .same (greeted_sameNumbers hconn) fun _ _ _ _ hop => nomatch hop

end Daemon

namespace Numbering

variable {g g' : Numbering} {c : Nat} {conn : Conn}

structure Sound (g : Numbering) : Prop where
  inv : g.d.Inv
  first : g.first.toNat < 10000
  next : g.d.mMcId = g.first + UInt32.ofNat g.given.length
  ids : g.given.map (·.2) = (List.range g.given.length).map fun i => g.first + UInt32.ofNat i
  nodup : g.clients.Nodup
  covered : ∀ c ∈ g.clients, ∃ p ∈ g.given, p.1 = c
  known : ∀ p ∈ g.given, p.1 ∈ g.clients ∧
    ∃ conn, g.d.conns p.1 = some conn ∧ conn.isServer = false
  /-- A client is given another number only while it has the number 0. -/
  again : g.given.Pairwise fun p p' => p.1 = p'.1 → p.2 = 0
  own : ∀ {c conn}, g.d.conns c = some conn → conn.isServer = false → conn.mcId ≠ 0 →
    (c, conn.mcId) ∈ g.given
  unnumbered : ∀ {c conn}, g.d.conns c = some conn → conn.isServer = false → conn.mcId = 0 →
    ∀ p ∈ g.given, p.1 = c → p.2 = 0
  groups : ∀ mcId, g.d.multicastConnections mcId ≠ none → ∃ p ∈ g.given, p.2 = mcId
  tabled : g.d.Tabled

theorem firstMcId_lt (sAddr rand : UInt32) : (firstMcId sAddr rand).toNat < 10000 := by
  rw [firstMcId, UInt32.toNat_mod]
  exact Nat.mod_lt _ (by decide)

theorem Sound.start (h : g.Start) : g.Sound where
  inv := .start h.daemon
  first := by
    obtain ⟨sAddr, rand, -, hfirst⟩ := h.first
    rw [hfirst]
    exact firstMcId_lt sAddr rand
  next := by simp [h.given, h.next]
  ids := by simp [h.given]
  nodup := by simp [h.clients]
  covered := by simp [h.clients]
  known := by simp [h.given]
  again := by simp [h.given]
  own hconn := by simp [h.daemon.conns] at hconn
  unnumbered hconn := by simp [h.daemon.conns] at hconn
  groups mcId hsome := absurd (h.daemon.connections mcId) hsome
  tabled mcId msg hmem := by simp [h.daemon.log] at hmem

theorem Sound.accept (h : g.Sound) (hfree : g.d.conns c = none) (peerAddr : EntityAddr) :
    { g with d := g.d.accept c peerAddr }.Sound := by
  have hother {c' : Nat} {conn : Conn} (hconn : g.d.conns c' = some conn) : c' ≠ c := by
    rintro rfl
    cases hfree.symm.trans hconn
  refine ⟨h.inv.accept hfree peerAddr, h.first, h.next, h.ids, h.nodup, h.covered, ?_, h.again,
    ?_, ?_, h.groups, h.tabled⟩
  · intro p hp
    obtain ⟨hclient, conn, hconn, hkind⟩ := h.known p hp
    exact ⟨hclient, conn, (Function.update_of_ne (hother hconn) ..).trans hconn, hkind⟩
  · intro c' conn' hconn' hkind hid
    by_cases hc : c' = c
    · subst hc
      cases (Function.update_self ..).symm.trans hconn'
      exact absurd rfl hid
    · exact h.own ((Function.update_of_ne hc ..).symm.trans hconn') hkind hid
  · intro c' conn' hconn' hkind hid p hp hpc
    by_cases hc : c' = c
    · obtain ⟨-, conn, hconn, -⟩ := h.known p hp
      exact absurd (hpc.trans hc) (hother hconn)
    · exact h.unnumbered ((Function.update_of_ne hc ..).symm.trans hconn') hkind hid p hp hpc

/-- A connection of a client in a daemon that has opened a group. -/
theorem client_of_opened {d : Daemon} {c₁ c₂ : Nat} {msg : CmMsg} (hasks : d.Asks c conn c₁ c₂)
    {c' : Nat} {conn' : Conn} (hconn' : (d.opened c conn msg c₁ c₂).conns c' = some conn')
    (hclient : conn'.isServer = false) :
    c' = c ∧ conn'.mcId = d.mMcId ∨ c' ≠ c ∧ d.conns c' = some conn' := by
  by_cases hc : c' = c
  · subst hc
    cases (hasks.client msg.mcGroup).symm.trans hconn'
    exact .inl ⟨rfl, rfl⟩
  · refine .inr ⟨hc, ?_⟩
    have hne₂ : c' ≠ c₂ := by
      rintro rfl
      cases (Function.update_self ..).symm.trans hconn'
      cases hclient
    have hmore := (Function.update_of_ne hne₂ ..).symm.trans hconn'
    have hne₁ : c' ≠ c₁ := by
      rintro rfl
      cases (Function.update_self ..).symm.trans hmore
      cases hclient
    exact (Function.update_of_ne hc ..).symm.trans ((Function.update_of_ne hne₁ ..).symm.trans hmore)

theorem mem_heard {clients : List Nat} {c c' c₁ c₂ : Nat} {msg : CmMsg} :
    c' ∈ heard clients (.clientReadable c msg c₁ c₂) ↔ c' ∈ clients ∨ c' = c := by
  change c' ∈ (if c ∈ clients then clients else clients ++ [c]) ↔ _
  split
  · rename_i hc
    exact ⟨.inl, fun hmem => hmem.elim id fun heq => heq ▸ hc⟩
  · simp

theorem nodup_heard {clients : List Nat} (h : clients.Nodup) (op : Daemon.Op) :
    (heard clients op).Nodup := by
  unfold heard
  split
  · split
    · exact h
    · rename_i hc
      exact List.nodup_append.mpr ⟨h, List.nodup_singleton _, by
        intro c' hc' c'' hc'' heq
        exact hc (List.mem_singleton.mp hc'' ▸ heq ▸ hc')⟩
  · exact h

theorem Sound.opened (h : g.Sound) {c₁ c₂ : Nat} (hasks : g.d.Asks c conn c₁ c₂)
    (hzero : conn.mcId = 0) (msg : CmMsg) (hinv : (g.d.opened c conn msg c₁ c₂).Inv) :
    { g with
      d := g.d.opened c conn msg c₁ c₂
      clients := heard g.clients (.clientReadable c msg c₁ c₂)
      given := g.given ++ [(c, g.d.mMcId)] }.Sound := by
  have hnew : (c, g.d.mMcId) ∈ g.given ++ [(c, g.d.mMcId)] :=
    List.mem_append_right _ List.mem_cons_self
  have hheard {c' : Nat} : c' ∈ heard g.clients (.clientReadable c msg c₁ c₂) ↔
      c' ∈ g.clients ∨ c' = c := mem_heard
  refine ⟨hinv, h.first, ?_, ?_, nodup_heard h.nodup (.clientReadable c msg c₁ c₂), ?_, ?_, ?_,
    ?_, ?_, ?_, h.tabled⟩
  · change g.d.mMcId + 1 = g.first + UInt32.ofNat (g.given ++ [(c, g.d.mMcId)]).length
    rw [h.next, List.length_append, List.length_singleton, UInt32.ofNat_add, ← UInt32.add_assoc]
    rfl
  · dsimp only
    rw [List.map_append, h.ids, List.length_append, List.length_singleton, List.range_succ,
      List.map_append, List.map_singleton, List.map_singleton, h.next]
  · intro c' hc'
    rcases hheard.mp hc' with hold | rfl
    · obtain ⟨p, hp, hpc⟩ := h.covered c' hold
      exact ⟨p, List.mem_append_left _ hp, hpc⟩
    · exact ⟨_, hnew, rfl⟩
  · intro p hp
    rcases List.mem_append.mp hp with hold | hlast
    · obtain ⟨hclient, conn', hconn', hkind⟩ := h.known p hold
      refine ⟨hheard.mpr (.inl hclient), ?_⟩
      by_cases hpc : p.1 = c
      · refine ⟨{ conn with mcId := g.d.mMcId }, ?_, hasks.isClient⟩
        rw [hpc]
        exact hasks.client msg.mcGroup
      · exact ⟨conn', hasks.old msg.mcGroup hconn' hpc, hkind⟩
    · obtain rfl := List.mem_singleton.mp hlast
      exact ⟨hheard.mpr (.inr rfl), _, hasks.client msg.mcGroup, hasks.isClient⟩
  · refine List.pairwise_append.mpr ⟨h.again, List.pairwise_singleton _ _, ?_⟩
    intro p hp p' hp' hsame
    obtain rfl := List.mem_singleton.mp hp'
    exact h.unnumbered hasks.found hasks.isClient hzero p hp hsame
  · intro c' conn' hconn' hkind hid
    rcases client_of_opened hasks hconn' hkind with ⟨rfl, hnext⟩ | ⟨-, hold⟩
    · rw [hnext]
      exact hnew
    · exact List.mem_append_left _ (h.own hold hkind hid)
  · intro c' conn' hconn' hkind hid p hp hpc
    rcases client_of_opened hasks hconn' hkind with ⟨rfl, hnext⟩ | ⟨hne, hold⟩
    · rcases List.mem_append.mp hp with hold | hlast
      · exact h.unnumbered hasks.found hasks.isClient hzero p hold hpc
      · obtain rfl := List.mem_singleton.mp hlast
        exact hnext.symm.trans hid
    · rcases List.mem_append.mp hp with hmem | hlast
      · exact h.unnumbered hold hkind hid p hmem hpc
      · obtain rfl := List.mem_singleton.mp hlast
        exact absurd hpc.symm hne
  · intro mcId hsome
    by_cases hid : mcId = g.d.mMcId
    · exact ⟨_, hnew, hid.symm⟩
    · obtain ⟨p, hp, hpid⟩ := h.groups mcId fun hnone =>
        hsome ((Function.update_of_ne hid ..).trans hnone)
      exact ⟨p, List.mem_append_left _ hp, hpid⟩

theorem Sound.same (h : g.Sound) {d' : Daemon} (hsame : g.d.SameNumbers d') (hinv : d'.Inv) :
    { g with d := d' }.Sound := by
  refine ⟨hinv, h.first, hsame.next.trans h.next, h.ids, h.nodup, h.covered, ?_, h.again, ?_, ?_,
    ?_, hsame.tabled h.tabled⟩
  · intro p hp
    obtain ⟨hclient, conn, hconn, hkind⟩ := h.known p hp
    obtain ⟨conn', hconn', -, hkind'⟩ := hsame.kept hconn
    exact ⟨hclient, conn', hconn', hkind'.trans hkind⟩
  · intro c conn' hconn' hkind hid
    obtain ⟨conn, hconn, hid', hkind'⟩ := hsame.conns hconn'
    rw [← hid'] at hid ⊢
    exact h.own hconn (hkind'.trans hkind) hid
  · intro c conn' hconn' hkind hid
    obtain ⟨conn, hconn, hid', hkind'⟩ := hsame.conns hconn'
    exact h.unnumbered hconn (hkind'.trans hkind) (hid'.trans hid)
  · intro mcId hsome
    exact h.groups mcId fun hnone => hsome (by
      dsimp only
      rw [hsame.connections, hnone])

theorem Sound.step (h : g.Sound) {op : Daemon.Op} (henabled : g.d.Enabled op) :
    Ends (g.step op) Sound fun _ => True := by
  refine ((h.inv.numbers henabled).and (h.inv.step henabled)).bind ?_
  rintro d' ⟨hnumbers, hinv⟩
  cases hnumbers with
  | accept hfree =>
      rename_i c peerAddr
      have hsound := h.accept hfree peerAddr
      simpa [Daemon.gives, heard] using hsound
  | @opened c c₁ c₂ conn msg hasks hzero =>
      have hgives : g.d.gives (.clientReadable c msg c₁ c₂) = some (c, g.d.mMcId) := by
        simp [Daemon.gives, hasks.found, hzero]
      rw [hgives]
      exact h.opened hasks hzero msg hinv
  | same hsame hold =>
      have hquiet : g.d.gives op = none ∧ heard g.clients op = g.clients := by
        cases op with
        | clientReadable c msg c₁ c₂ =>
            obtain ⟨conn, hconn, hclient, hid⟩ := hold c msg c₁ c₂ rfl
            have hheard := (h.known _ (h.own hconn hclient hid)).1
            exact ⟨by simp [Daemon.gives, hconn, hid], if_pos hheard⟩
        | accept | clientWriteable | serverReadable | serverWriteable => exact ⟨rfl, rfl⟩
      rw [hquiet.1, hquiet.2, Option.toList_none, List.append_nil]
      exact h.same hsame hinv

theorem sound_of_reachable (h : machine.Reachable g) : g.Sound :=
  h.invariant (fun _ hstart => .start hstart)
    fun _ _ _ _ hsound henabled hrun => (hsound.step henabled).value hrun

theorem Sound.number (h : g.Sound) {i : Nat} (hi : i < g.given.length) :
    g.given[i].2 = g.first + UInt32.ofNat i := by
  have hids := List.getElem_of_eq h.ids (i := i) (by rwa [List.length_map])
  simpa using hids

theorem Sound.number_toNat (h : g.Sound) {i : Nat} (hi : i < g.given.length) (hfew : i < 2 ^ 31 + 1) :
    g.given[i].2.toNat = g.first.toNat + i := by
  have hfirst := h.first
  rw [h.number hi, UInt32.toNat_add, UInt32.toNat_ofNat_of_lt' (by change i < 2 ^ 32; omega)]
  exact Nat.mod_eq_of_lt (by omega)

/-- Numbers that are not 0 are given to different clients. -/
theorem Sound.clients_nodup (h : g.Sound) {n : Nat} (hnonzero : ∀ p ∈ g.given.take n, p.2 ≠ 0) :
    ((g.given.take n).map (·.1)).Nodup := by
  refine List.pairwise_map.mpr ?_
  refine (h.again.sublist (List.take_sublist n _)).imp_of_mem ?_
  intro p p' hp _ hagain hsame
  exact hnonzero p hp (hagain hsame)

/-- No client is given two numbers if the first of all is not 0. -/
theorem Sound.length_le (h : g.Sound) (hfirst : g.first ≠ 0) (hfew : g.clients.length < 2 ^ 31) :
    g.given.length ≤ g.clients.length := by
  by_contra hmore
  have hnonzero : ∀ p ∈ g.given.take (g.clients.length + 1), p.2 ≠ 0 := by
    intro p hp hzero
    obtain ⟨i, hi, rfl⟩ := List.mem_take_iff_getElem.mp hp
    have hvalue := h.number_toNat (i := i) (by omega) (by omega)
    rw [hzero] at hvalue
    exact hfirst (UInt32.toNat_inj.mp (by rw [UInt32.toNat_zero] at *; omega))
  have hsub : (g.given.take (g.clients.length + 1)).map (·.1) ⊆ g.clients := by
    intro c hc
    obtain ⟨p, hp, rfl⟩ := List.mem_map.mp hc
    exact (h.known p (List.mem_of_mem_take hp)).1
  have hlength := ((h.clients_nodup hnonzero).subperm hsub).length_le
  rw [List.length_map, List.length_take_of_le (by omega)] at hlength
  omega

theorem Sound.clients_le (h : g.Sound) : g.clients.length ≤ g.given.length := by
  have hsub : g.clients ⊆ g.given.map (·.1) := by
    intro c hc
    obtain ⟨p, hp, rfl⟩ := h.covered c hc
    exact List.mem_map_of_mem hp
  simpa using (h.nodup.subperm hsub).length_le

theorem filter_of_nodup {given : List (Nat × McId)} (hnodup : (given.map (·.1)).Nodup) {c : Nat}
    {mcId : McId} (hmem : (c, mcId) ∈ given) : given.filter (·.1 = c) = [(c, mcId)] := by
  induction given with
  | nil => cases hmem
  | cons p rest ih =>
      obtain ⟨hfirst, hrest⟩ := List.nodup_cons.mp hnodup
      rcases List.mem_cons.mp hmem with rfl | hmem
      · have hnone : rest.filter (·.1 = c) = [] := by
          refine List.filter_eq_nil_iff.mpr fun p hp hpc => hfirst ?_
          exact List.mem_map.mpr ⟨p, hp, by simpa using hpc⟩
        rw [List.filter_cons_of_pos (by simp), hnone]
      · have hne : p.1 ≠ c := by
          rintro rfl
          exact hfirst (List.mem_map_of_mem (f := (·.1)) hmem)
        rw [List.filter_cons_of_neg (by simpa using hne), ih hrest hmem]

theorem Sound.distinct (h : g.Sound) (hfew : g.given.length ≤ 2 ^ 31) :
    (g.given.map (·.2)).Nodup := by
  refine List.nodup_iff_injective_get.mpr ?_
  rintro ⟨i, hi⟩ ⟨j, hj⟩ hsame
  rw [List.length_map] at hi hj
  simp only [List.get_eq_getElem, List.getElem_map] at hsame
  have hvalues := congrArg UInt32.toNat hsame
  rw [h.number_toNat hi (by omega), h.number_toNat hj (by omega)] at hvalues
  exact Fin.ext (by dsimp only; omega)

theorem Sound.usable (h : g.Sound) (hfew : g.given.length ≤ 2 ^ 31)
    (hnonzero : ∀ p ∈ g.given, p.2 ≠ 0) (hadmitted : ∀ p ∈ g.given, p.2 ≠ 2) : g.Usable := by
  have hclients : (g.given.map (·.1)).Nodup := by
    have htaken := h.clients_nodup (n := g.given.length) (by simpa using hnonzero)
    rwa [List.take_length] at htaken
  refine ⟨?_, ?_, hnonzero, hadmitted, ?_⟩
  · intro c hc
    obtain ⟨p, hp, rfl⟩ := h.covered c hc
    obtain ⟨-, conn, hconn, hkind⟩ := h.known p hp
    have hid : conn.mcId ≠ 0 := fun hzero =>
      hnonzero p hp (h.unnumbered hconn hkind hzero p hp rfl)
    exact ⟨conn, hconn, filter_of_nodup hclients (h.own hconn hkind hid)⟩
  · exact h.distinct hfew
  · intro mcId msg hmem
    have hopened : g.d.multicastConnections mcId ≠ none := fun hnone =>
      (h.inv.unused hnone).2.2 _ hmem rfl
    obtain ⟨p, hp, rfl⟩ := h.groups mcId hopened
    exact h.tabled p.2 msg hmem (hadmitted p hp)

/-- The first two numbers that are given tell where the daemon counts from. -/
theorem Sound.first_of_usable (h : g.Sound) (husable : g.Usable) (hsome : g.clients ≠ []) :
    3 ≤ g.first.toNat ∨ g.first = 1 ∧ g.clients.length = 1 := by
  have hle := h.clients_le
  have hpos := List.length_pos_of_ne_nil hsome
  have hmem : g.given[0] ∈ g.given := List.getElem_mem (by omega)
  have hvalue := h.number_toNat (i := 0) (by omega) (by omega)
  have hzero : g.given[0].2.toNat ≠ 0 := fun hzero =>
    husable.nonzero _ hmem (UInt32.toNat_inj.mp hzero)
  have htwo : g.given[0].2.toNat ≠ 2 := fun htwo =>
    husable.admitted _ hmem (UInt32.toNat_inj.mp htwo)
  by_cases hone : g.first.toNat = 1
  · refine .inr ⟨UInt32.toNat_inj.mp hone, ?_⟩
    by_contra hmore
    -- the second number is 2
    have hsecond := h.number_toNat (i := 1) (by omega) (by omega)
    rw [hone] at hsecond
    exact husable.admitted g.given[1] (List.getElem_mem _) (UInt32.toNat_inj.mp hsecond)
  · exact .inl (by omega)

/-- Counting from 3, or once from 1, comes to neither of the two reserved numbers. -/
theorem Sound.values_of_first (h : g.Sound) (hfew : g.clients.length < 2 ^ 31)
    (hfirst : 3 ≤ g.first.toNat ∨ g.first = 1 ∧ g.clients.length = 1) :
    g.given.length ≤ g.clients.length ∧ ∀ p ∈ g.given, p.2.toNat ≠ 0 ∧ p.2.toNat ≠ 2 := by
  have hfrom : 3 ≤ g.first.toNat ∨ g.first.toNat = 1 ∧ g.clients.length = 1 :=
    hfirst.imp_right fun hone => ⟨congrArg UInt32.toNat hone.1, hone.2⟩
  have hnonzero : g.first ≠ 0 := by
    intro hzero
    rw [hzero, UInt32.toNat_zero] at hfrom
    omega
  have hle := h.length_le hnonzero hfew
  refine ⟨hle, fun p hp => ?_⟩
  obtain ⟨i, hi, rfl⟩ := List.mem_iff_getElem.mp hp
  have hvalue := h.number_toNat hi (by omega)
  omega

/-- While fewer than `2^31` clients are heard, the numbers are usable exactly when no client has
been heard, or the daemon counts from 3 or more, or from 1 and only one client has been
heard. -/
theorem mc_ids_usable_iff (g : Numbering) (h : machine.Reachable g)
    (hfew : g.clients.length < 2 ^ 31) :
    g.Usable ↔ g.clients = [] ∨ 3 ≤ g.first.toNat ∨ g.first = 1 ∧ g.clients.length = 1 := by
  have hsound := sound_of_reachable h
  constructor
  · intro husable
    by_cases hnone : g.clients = []
    · exact .inl hnone
    · exact .inr (hsound.first_of_usable husable hnone)
  · intro hcond
    have hvalues : g.given.length ≤ g.clients.length ∧
        ∀ p ∈ g.given, p.2.toNat ≠ 0 ∧ p.2.toNat ≠ 2 := by
      rcases hcond with hnone | hfirst
      · have hgiven : g.given = [] := by
          refine List.eq_nil_iff_forall_not_mem.mpr fun p hp => ?_
          have hclient := (hsound.known p hp).1
          rw [hnone] at hclient
          cases hclient
        simp [hgiven]
      · exact hsound.values_of_first hfew hfirst
    refine hsound.usable (by omega) (fun p hp hzero => ?_) fun p hp htwo => ?_
    · exact (hvalues.2 p hp).1 (by rw [hzero]; rfl)
    · exact (hvalues.2 p hp).2 (by rw [htwo]; rfl)

/-- A daemon without connections that counts from `first`. -/
def idle (first : McId) : Numbering where
  d := { Daemon.idle with mMcId := first }
  first
  clients := []
  given := []

theorem idle_start {first : McId} (hfirst : first.toNat < 10000) : (idle first).Start where
  daemon := ⟨fun _ => rfl, fun _ => rfl, fun _ => rfl, fun _ => rfl, fun _ => rfl, rfl, rfl⟩
  next := rfl
  first := by
    refine ⟨0, first, Nat.lt_trans hfirst (by decide), UInt32.toNat_inj.mp ?_⟩
    simpa [idle, firstMcId, UInt32.toNat_mod] using (Nat.mod_eq_of_lt hfirst).symm
  clients := rfl
  given := rfl

theorem mc_ids_usable_iff_from_five : ∃ g, machine.Reachable g ∧ g.given = [(0, 5)] ∧ g.Usable := by
  have hidle : machine.Reachable (idle 5) := .start (idle_start (by decide))
  have haccepted := hidle.next (.accept 0 ⟨9, 6000⟩) rfl rfl
  have hopened := haccepted.next (.clientReadable 0 (Daemon.greeting 17) 1 2)
    ⟨⟨_, rfl, rfl⟩, by decide, rfl, rfl⟩ rfl
  exact ⟨_, hopened, rfl,
    (mc_ids_usable_iff _ hopened (by decide)).mpr (.inr (.inl (by decide)))⟩

/-- A daemon that counts from 2 answers its first client about a group that the switch has
refused; one that counts from 0 gives its first client two numbers. -/
theorem mc_ids_not_usable :
    (∃ g, machine.Reachable g ∧ g.first = 2 ∧ g.given = [(0, 2)] ∧
      (∃ msg, .toClient 2 msg ∈ g.d.log) ∧ g.d.table = [] ∧ ¬ g.Usable) ∧
    ∃ g, machine.Reachable g ∧ g.first = 0 ∧ g.given = [(0, 0), (0, 1)] ∧ ¬ g.Usable := by
  constructor
  · have hidle : machine.Reachable (idle 2) := .start (idle_start (by decide))
    have haccepted := hidle.next (.accept 0 ⟨9, 6000⟩) rfl rfl
    have hopened := haccepted.next (.clientReadable 0 (Daemon.greeting 17) 1 2)
      ⟨⟨_, rfl, rfl⟩, by decide, rfl, rfl⟩ rfl
    have hone := hopened.next (.serverWriteable 1 fun _ => .whole) ⟨_, rfl, rfl, rfl⟩ rfl
    have htwo := hone.next (.serverWriteable 2 fun _ => .whole) ⟨_, rfl, rfl, rfl⟩ rfl
    have hacked := htwo.next
      (.serverReadable 2 (Daemon.greeting 35) (fun _ => .whole) fun _ => .whole) ⟨_, rfl, rfl⟩ rfl
    have hdone := hacked.next
      (.serverReadable 1 (Daemon.greeting 34) (fun _ => .whole) fun _ => .whole) ⟨_, rfl, rfl⟩ rfl
    refine ⟨_, hdone, rfl, rfl, ⟨_, List.mem_append_right _ List.mem_cons_self⟩, rfl, fun h => ?_⟩
    exact h.admitted (0, 2) List.mem_cons_self rfl
  · have hidle : machine.Reachable (idle 0) := .start (idle_start (by decide))
    have haccepted := hidle.next (.accept 0 ⟨9, 6000⟩) rfl rfl
    have hopened := haccepted.next (.clientReadable 0 (Daemon.greeting 17) 1 2)
      ⟨⟨_, rfl, rfl⟩, by decide, rfl, rfl⟩ rfl
    have hagain := hopened.next (.clientReadable 0 (Daemon.greeting 17) 3 4)
      ⟨⟨_, rfl, rfl⟩, by decide, rfl, rfl⟩ rfl
    refine ⟨_, hagain, rfl, rfl, fun h => ?_⟩
    exact h.nonzero (0, 0) List.mem_cons_self rfl

end Numbering

end RdmaCapsule.Multicast
