import Mathlib
import Intercom.Proofs.Relay.Sessions
import Intercom.Proofs.Signaling.Moves

/-!
This module contains who holds which session: no two connections hold sessions of the same id, and the roster
lists the sessions of the connections that are registered.
-/

namespace Intercom.Signaling

open SessionTable (Alike Change)

variable {c c' : Connection} {cs cs' : List Connection} {h h' : Hub} {info : SessionInfo} {l : Lobby}
variable {fresh : Option SessionId}

abbrev Hub.table (h : Hub) : SessionTable :=
  h.handle.relay.table

def held (cs : List Connection) : List SessionInfo :=
  cs.filterMap (·.phase.session?)

def registered (cs : List Connection) : List SessionInfo :=
  cs.filterMap (·.phase.registered?)

theorem held_cons (c : Connection) (cs : List Connection) : held (c :: cs) = c.phase.session?.toList ++ held cs := by
  unfold held
  rw [List.filterMap_cons]
  cases c.phase.session? with
  | none => rfl
  | some info => rfl

theorem registered_cons (c : Connection) (cs : List Connection)
    : registered (c :: cs) = c.phase.registered?.toList ++ registered cs := by
  unfold registered
  rw [List.filterMap_cons]
  cases c.phase.registered? with
  | none => rfl
  | some info => rfl

theorem Phase.session?_of_registered? {phase : Phase} (hregistered : phase.registered? = some info)
    : phase.session? = some info := by
  cases phase with
  | registered _ | serving _ | listDue _ | listTaken _ _ => exact hregistered
  | arriving | opened _ | leaving _ _ | ended => simp [registered?] at hregistered

theorem registered_sublist_held (cs : List Connection) : (registered cs).Sublist (held cs) := by
  induction cs with
  | nil => exact .refl _
  | cons c cs ih =>
    rw [held_cons, registered_cons]
    apply List.Sublist.append _ ih
    cases hregistered : c.phase.registered? with
    | none => exact List.nil_sublist _
    | some info => rw [Phase.session?_of_registered? hregistered]

/-- What a step of a connection means for the sessions and for who is registered. -/
inductive Shift (c : Connection) (h : Hub) : Connection × Hub → Prop where
  | steady {c' : Connection} {h' : Hub}
      (hheld : c'.phase.session? = c.phase.session?)
      (hregistered : c'.phase.registered? = c.phase.registered?)
      (hinfos : h'.roster.infos = h.roster.infos)
      (htable : Alike h.table h'.table)
      (hwf : h.table.WellFormed → h'.table.WellFormed)
      (hrunning : h'.handle.running = h.handle.running) :
      Shift c h (c', h')
  | opens {c' : Connection} {relay : Relay} (info : SessionInfo)
      (hphase : c.phase = .arriving)
      (hafter : c'.phase = .opened info)
      (hopen : h.table.openSession h.handle.relay.settings = .ok (info, relay.table)) :
      Shift c h (c', { h with handle := { h.handle with relay } })
  | registers {c' : Connection} (info : SessionInfo)
      (hphase : c.phase = .opened info)
      (hafter : c'.phase = .registered info) :
      Shift c h (c', { h with roster := h.roster.register info })
  | leaves {c' : Connection} (info : SessionInfo) (queue : Queue)
      (hphase : c.phase = .serving info)
      (hafter : c'.phase = .leaving info queue) :
      Shift c h (c', { h with roster := (h.roster.remove info.id).2 })
  | closes {c' : Connection} {relay : Relay} (info : SessionInfo) (queue : Queue) (s : Session)
      (hphase : c.phase = .leaving info queue)
      (hafter : c'.phase = .listDue none)
      (hclose : h.table.close? info.id = some (s, relay.table)) :
      Shift c h (c', { h with handle := { h.handle with relay } })
  | closesInVain {c' : Connection} (info : SessionInfo) (queue : Queue)
      (hphase : c.phase = .leaving info queue)
      (hafter : c'.phase = .listDue none)
      (hvain : h.handle.running = false ∨ h.table.get? info.id = none) :
      Shift c h (c', h)

theorem shift_of_roster {roster : Roster} (hheld : c'.phase.session? = c.phase.session?)
    (hregistered : c'.phase.registered? = c.phase.registered?) (hinfos : roster.infos = h.roster.infos)
    : Shift c h (c', { h with roster }) :=
  .steady hheld hregistered hinfos (.refl _) id rfl

theorem Move.shift {listing : Option Listing} {next : Connection × Hub} (hmove : Move c h listing next)
    : Shift c h next := by
  cases hmove with
  | rest => exact shift_of_roster rfl rfl rfl
  | opens info relay hphase hopen => exact .opens info hphase rfl hopen
  | registers info hphase => exact .registers info hphase rfl
  | leaves info queue hphase => exact .leaves info queue hphase rfl
  | closes info queue s relay hphase hclose => exact .closes info queue s hphase rfl hclose
  | closesInVain info queue hphase hvain => exact .closesInVain info queue hphase rfl hvain
  | refused _ hphase | takes _ hphase | drains _ _ _ _ hphase | loses _ _ hphase =>
    apply shift_of_roster
    . rw [hphase]
      rfl
    . rw [hphase]
      rfl
    . rfl
  | greets info hphase =>
    apply shift_of_roster
    . rw [hphase]
      rfl
    . rw [hphase]
      rfl
    . apply Roster.infos_send
  | sends list next hphase =>
    apply shift_of_roster
    . rw [hphase]
      cases next with
      | none => rfl
      | some info => rfl
    . rw [hphase]
      cases next with
      | none => rfl
      | some info => rfl
    . apply Roster.infos_sendAll
  | talks info state hphase =>
    apply shift_of_roster
    . rw [hphase]
      rfl
    . rw [hphase]
      rfl
    . apply Roster.map_modify Client.info
      intro d
      rfl
  | offers info ice hphase =>
    have hwf (hwf : h.table.WellFormed) : (h.handle.relay.step (.setIce info.id ice)).table.WellFormed :=
      (Relay.regular hwf _).wellFormed
    exact .steady rfl rfl rfl (Relay.alike_setIce h.handle.relay info.id ice) hwf rfl
  | writes _ _ _ _ _ _ _ | breaks _ _ =>
    apply shift_of_roster
    . rfl
    . rfl
    . apply Roster.map_modify Client.info
      intro d
      rfl

theorem Shift.change {next : Connection × Hub} (hshift : Shift c h next)
    : ∃ fresh, Change h.table fresh next.2.table := by
  cases hshift with
  | steady hheld hregistered hinfos htable hwf hrunning => exact ⟨none, .alike htable⟩
  | opens info hphase hafter hopen => exact ⟨some info.id, .opened hopen⟩
  | registers info hphase hafter => exact ⟨none, .alike (.refl _)⟩
  | leaves info queue hphase hafter => exact ⟨none, .alike (.refl _)⟩
  | closes info queue s hphase hafter hclose => exact ⟨none, .closed hclose⟩
  | closesInVain info queue hphase hafter hvain => exact ⟨none, .alike (.refl _)⟩

structure Sound (cs : List Connection) (h : Hub) : Prop where
  wellFormed : h.table.WellFormed
  distinct : ((held cs).map (·.id)).Nodup
  spent : ∀ info ∈ held cs, h.table.Spent info.id
  roster : h.roster.infos.Perm (registered cs)

namespace Sound

theorem perm (hsound : Sound cs h) (hperm : cs.Perm cs') : Sound cs' h := by
  have hheld : (held cs).Perm (held cs') := hperm.filterMap _
  constructor
  . exact hsound.wellFormed
  . exact (hheld.map _).nodup_iff.1 hsound.distinct
  . intro info hinfo
    exact hsound.spent info (hheld.mem_iff.2 hinfo)
  . exact hsound.roster.trans (hperm.filterMap _)

theorem change (hsound : Sound cs h) (hwf : h'.table.WellFormed) (hinfos : h'.roster.infos = h.roster.infos)
    (hchange : Change h.table fresh h'.table) : Sound cs h' := by
  constructor
  . exact hwf
  . exact hsound.distinct
  . intro info hinfo
    exact ((hsound.spent info hinfo).change hchange).1
  . rw [hinfos]
    exact hsound.roster

/-- A connection may give up its session if it is not registered with it. -/
theorem sublist (hsound : Sound cs h) (hheld : (held cs').Sublist (held cs))
    (hregistered : registered cs' = registered cs) : Sound cs' h := by
  constructor
  . exact hsound.wellFormed
  . exact (hheld.map _).nodup hsound.distinct
  . intro info hinfo
    exact hsound.spent info (hheld.subset hinfo)
  . rw [hregistered]
    exact hsound.roster

theorem ne_of_mem_registered (hsound : Sound (c :: cs) h) (hphase : c.phase.session? = some info) {other : SessionInfo}
    (hother : other ∈ registered cs) : other.id ≠ info.id := by
  have hdistinct := hsound.distinct
  rw [held_cons, hphase, Option.toList_some, List.singleton_append, List.map_cons, List.nodup_cons] at hdistinct
  intro heq
  rw [← heq] at hdistinct
  exact hdistinct.1 (List.mem_map_of_mem ((registered_sublist_held cs).subset hother))

theorem opens {relay : Relay} (hsound : Sound (c :: cs) h) (hphase : c.phase = .arriving)
    (hafter : c'.phase = .opened info) (hopen : h.table.openSession h.handle.relay.settings = .ok (info, relay.table))
    : Sound (c' :: cs) { h with handle := { h.handle with relay } } := by
  have hheld : held (c' :: cs) = info :: held (c :: cs) := by
    rw [held_cons, held_cons, hphase, hafter]
    rfl
  have hregistered : registered (c' :: cs) = registered (c :: cs) := by
    rw [registered_cons, registered_cons, hphase, hafter]
    rfl
  have hchange : Change h.table (some info.id) relay.table := .opened hopen
  constructor
  . exact hsound.wellFormed.openSession hopen
  . rw [hheld, List.map_cons, List.nodup_cons]
    refine ⟨?_, hsound.distinct⟩
    -- Ids are given out in ascending order, and those of all held sessions have been given out.
    intro hmem
    rw [List.mem_map] at hmem
    rcases hmem with ⟨other, hother, heq⟩
    have hlt := (hsound.spent other hother).lt_of_openSession hopen
    rw [heq] at hlt
    exact UInt32.lt_irrefl _ hlt
  . rw [hheld]
    intro other hother
    rw [List.mem_cons] at hother
    rcases hother with rfl | hother
    . exact SessionTable.spent_of_openSession hopen
    . exact ((hsound.spent other hother).change hchange).1
  . rw [hregistered]
    exact hsound.roster

theorem registers (hsound : Sound (c :: cs) h) (hphase : c.phase = .opened info) (hafter : c'.phase = .registered info)
    : Sound (c' :: cs) { h with roster := h.roster.register info } := by
  have hheld : held (c' :: cs) = held (c :: cs) := by
    rw [held_cons, held_cons, hphase, hafter]
    rfl
  have hbefore : registered (c :: cs) = registered cs := by
    rw [registered_cons, hphase]
    rfl
  have hregistered : registered (c' :: cs) = info :: registered (c :: cs) := by
    rw [registered_cons, hafter, hbefore]
    rfl
  constructor
  . exact hsound.wellFormed
  . rw [hheld]
    exact hsound.distinct
  . rw [hheld]
    exact hsound.spent
  . rw [hregistered]
    apply (Roster.infos_register ?_).trans (hsound.roster.cons info)
    intro other hother
    rw [hsound.roster.mem_iff, hbefore] at hother
    apply hsound.ne_of_mem_registered _ hother
    rw [hphase]
    rfl

theorem leaves {queue : Queue} (hsound : Sound (c :: cs) h) (hphase : c.phase = .serving info)
    (hafter : c'.phase = .leaving info queue) : Sound (c' :: cs) { h with roster := (h.roster.remove info.id).2 } := by
  have hheld : held (c' :: cs) = held (c :: cs) := by
    rw [held_cons, held_cons, hphase, hafter]
    rfl
  have hbefore : registered (c :: cs) = info :: registered cs := by
    rw [registered_cons, hphase]
    rfl
  have hregistered : registered (c' :: cs) = registered cs := by
    rw [registered_cons, hafter]
    rfl
  constructor
  . exact hsound.wellFormed
  . rw [hheld]
    exact hsound.distinct
  . rw [hheld]
    exact hsound.spent
  . have hroster := hsound.roster
    rw [hbefore] at hroster
    rw [hregistered, Roster.infos_remove]
    apply (hroster.filter _).trans
    -- Only the one who leaves is registered under the id.
    rw [List.filter_cons_of_neg (by simp), List.filter_eq_self.2]
    intro other hother
    apply decide_eq_true
    apply hsound.ne_of_mem_registered _ hother
    rw [hphase]
    rfl

theorem gives {queue : Queue} (hsound : Sound (c :: cs) h) (hphase : c.phase = .leaving info queue)
    (hafter : c'.phase = .listDue none) : Sound (c' :: cs) h := by
  apply hsound.sublist
  . rw [held_cons, held_cons, hafter]
    exact List.sublist_append_right ..
  . rw [registered_cons, registered_cons, hphase, hafter]
    rfl

theorem shift {next : Connection × Hub} (hsound : Sound (c :: cs) h) (hshift : Shift c h next)
    : Sound (next.1 :: cs) next.2 := by
  cases hshift with
  | steady hheld hregistered hinfos htable hwf hrunning =>
    apply (hsound.change (hwf hsound.wellFormed) hinfos (.alike htable)).sublist
    . rw [held_cons, held_cons, hheld]
    . rw [registered_cons, registered_cons, hregistered]
  | opens info hphase hafter hopen => exact hsound.opens hphase hafter hopen
  | registers info hphase hafter => exact hsound.registers hphase hafter
  | leaves info queue hphase hafter => exact hsound.leaves hphase hafter
  | closes info queue s hphase hafter hclose =>
    apply Sound.gives _ hphase hafter
    exact hsound.change (hsound.wellFormed.close? hclose) rfl (.closed hclose)
  | closesInVain info queue hphase hafter hvain => exact hsound.gives hphase hafter

end Sound

section Lobby

open Lobby

theorem held_arrive (cs : List Connection) (host : Option String)
    : held (cs ++ [({ host } : Connection)]) = held cs := by
  unfold held
  rw [List.filterMap_append]
  exact List.append_nil _

theorem Sound.arrive (hsound : Sound cs h) (host : Option String) : Sound (cs ++ [({ host } : Connection)]) h := by
  apply hsound.sublist
  . rw [held_arrive]
  . unfold registered
    rw [List.filterMap_append]
    exact List.append_nil _

theorem Sound.turned {t : Turn} {listing : Option (Nat × Listing)} {l' : Lobby} (hsound : Sound l.connections l.hub)
    (hturned : Turned l t listing l') : Sound l'.connections l'.hub := by
  cases hturned with
  | arrives host => exact hsound.arrive host
  | misses i a => exact hsound
  | moves i a c listing next hc hmove =>
    apply Sound.perm _ (Trace.perm_set hc next.1).symm
    exact (hsound.perm (Trace.perm_of_getElem? hc)).shift hmove.shift
  | hears e =>
    exact hsound.change (Relay.regular hsound.wellFormed e).wellFormed rfl (Relay.change_step l.hub.handle.relay e)
  | stops =>
    have hchange : Change l.hub.table none (l.turn .stop).hub.table := .alike (.refl _)
    exact hsound.change hsound.wellFormed rfl hchange

theorem change_turned {t : Turn} {listing : Option (Nat × Listing)} {l' : Lobby} (hturned : Turned l t listing l')
    : ∃ fresh, Change l.hub.table fresh l'.hub.table := by
  cases hturned with
  | arrives host => exact ⟨none, .alike (.refl _)⟩
  | misses i a => exact ⟨none, .alike (.refl _)⟩
  | moves i a c listing next hc hmove => exact hmove.shift.change
  | hears e => exact ⟨_, Relay.change_step l.hub.handle.relay e⟩
  | stops => exact ⟨none, .alike (.refl _)⟩

theorem sound_after (names : NamePool) (password : String) (settings : Handshake.Settings) (capacity : Nat)
    (publicAddress : Option String) (fingerprint : String) (relayPort : UInt16) (turns : List Turn) (k : Nat)
    : let l := Trace.after turn
        (start (Relay.start names password settings capacity) publicAddress fingerprint relayPort) turns k
      Sound l.connections l.hub := by
  apply Trace.keeps (P := fun l : Lobby => Sound l.connections l.hub) _ (Nat.zero_le k)
  . constructor
    . exact Relay.start_wellFormed names password settings capacity
    . exact List.nodup_nil
    . intro info hinfo
      exact absurd hinfo List.not_mem_nil
    . exact .refl _
  . intro i t ht hsound
    exact hsound.turned (turned _ t)

end Lobby

end Intercom.Signaling
