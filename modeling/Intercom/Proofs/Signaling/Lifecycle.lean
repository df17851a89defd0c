import Mathlib
import Intercom.Proofs.Signaling.Holders

/-!
This module contains that sessions and registrations live and end together: whoever is registered has an open
session, a connection finds its session as long as it has not closed it, and connections that have all ended leave
nothing behind.
-/

namespace Intercom.Signaling

open Lobby (Turn turn start sampleStart sampleSteps)

variable {c : Connection} {cs cs' : List Connection} {h : Hub} {info : SessionInfo} {l : Lobby}
variable {others : List SessionInfo}

structure Tended (others : List SessionInfo) (cs : List Connection) (h : Hub) : Prop where
  sound : Sound cs h
  sessions : (h.table.sessions.map Session.info).Perm (held cs ++ others)

namespace Tended

theorem perm (htended : Tended others cs h) (hperm : cs.Perm cs') : Tended others cs' h := by
  constructor
  . exact htended.sound.perm hperm
  . exact htended.sessions.trans ((hperm.filterMap _).append_right others)

theorem get?_of_mem_held (htended : Tended others cs h) (hinfo : info ∈ held cs)
    : ∃ s, h.table.get? info.id = some s ∧ s.info = info := by
  apply SessionTable.get?_of_mem_infos htended.sound.wellFormed
  rw [htended.sessions.mem_iff]
  exact List.mem_append_left others hinfo

theorem get?_of_leaving {queue : Queue} (htended : Tended others (c :: cs) h) (hphase : c.phase = .leaving info queue)
    : ∃ s, h.table.get? info.id = some s ∧ s.info = info := by
  apply htended.get?_of_mem_held
  rw [held_cons, hphase]
  exact List.mem_cons_self ..

theorem shift {next : Connection × Hub} (htended : Tended others (c :: cs) h) (hshift : Shift c h next)
    : ∃ others',
        Tended others' (next.1 :: cs) next.2 ∧
        (h.handle.running = true → others' = others ∧ next.2.handle.running = true) := by
  have hsound := htended.sound.shift hshift
  have hsessions := htended.sessions
  cases hshift with
  | steady hheld hregistered hinfos htable hwf hrunning =>
    refine ⟨others, ⟨hsound, ?_⟩, fun hbefore => ⟨rfl, hrunning.trans hbefore⟩⟩
    rw [held_cons, hheld, ← held_cons, htable.infos]
    exact hsessions
  | opens info hphase hafter hopen =>
    refine ⟨others, ⟨hsound, ?_⟩, fun hbefore => ⟨rfl, hbefore⟩⟩
    rw [held_cons, hphase] at hsessions
    rw [SessionTable.infos_openSession hopen, held_cons, hafter]
    exact (List.perm_append_singleton info _).trans (hsessions.cons info)
  | registers _ hphase hafter | leaves _ _ hphase hafter =>
    refine ⟨others, ⟨hsound, ?_⟩, fun hbefore => ⟨rfl, hbefore⟩⟩
    rw [held_cons, hphase] at hsessions
    rw [held_cons, hafter]
    exact hsessions
  | closes info queue s hphase hafter hclose =>
    refine ⟨others, ⟨hsound, ?_⟩, fun hbefore => ⟨rfl, hbefore⟩⟩
    have hs : s.info = info := by
      rcases htended.get?_of_leaving hphase with ⟨s', hget, hs'⟩
      rw [(SessionTable.close?_eq_some hclose).1, Option.some.injEq] at hget
      rw [hget]
      exact hs'
    have hclosed := SessionTable.perm_infos_close? htended.sound.wellFormed hclose
    rw [hs] at hclosed
    rw [held_cons, hphase] at hsessions
    rw [held_cons, hafter]
    exact (hclosed.symm.trans hsessions).cons_inv
  | closesInVain info queue hphase hafter hvain =>
    rcases hvain with hstopped | hnone
    -- A relay that has stopped keeps the session, which nobody holds any more.
    . refine ⟨info :: others, ⟨hsound, ?_⟩, ?_⟩
      . rw [held_cons, hphase] at hsessions
        rw [held_cons, hafter]
        exact hsessions.trans List.perm_middle.symm
      . intro hbefore
        rw [hstopped] at hbefore
        exact absurd hbefore (by decide)
    . rcases htended.get?_of_leaving hphase with ⟨s, hget, -⟩
      rw [hnone] at hget
      exact absurd hget (by simp)

theorem hears (htended : Tended others cs h) {e : Relay.Event} (hcloses : ∀ id, e ≠ .closeSession id)
    : ∃ others',
        Tended others' cs { h with handle.relay := h.handle.relay.step e } ∧
        (e ≠ .openSession → others' = others) := by
  have hsound : Sound cs { h with handle.relay := h.handle.relay.step e } :=
    htended.sound.change (Relay.regular htended.sound.wellFormed e).wellFormed rfl (Relay.change_step h.handle.relay e)
  by_cases hopens : e = .openSession
  . rw [hopens] at hsound ⊢
    rcases h.handle.relay.openSession_cases with ⟨info, hopen, -⟩ | ⟨e, hfailed⟩
    . refine ⟨info :: others, ⟨hsound, ?_⟩, fun hother => absurd rfl hother⟩
      have hinfos := SessionTable.infos_openSession hopen
      have hperm := (List.perm_append_singleton info _).trans (htended.sessions.cons info)
      rw [← hinfos] at hperm
      exact hperm.trans List.perm_middle.symm
    . refine ⟨others, ⟨hsound, ?_⟩, fun hother => absurd rfl hother⟩
      unfold Relay.step
      dsimp only
      rw [hfailed]
      exact htended.sessions
  . refine ⟨others, ⟨hsound, ?_⟩, fun _ => rfl⟩
    have halike := Relay.alike_step h.handle.relay hopens hcloses
    exact halike.infos ▸ htended.sessions

theorem turned {t : Turn} {listing : Option (Nat × Listing)} {l' : Lobby} (htended : Tended others l.connections l.hub)
    (hturned : Lobby.Turned l t listing l') (hcloses : ∀ id, t ≠ .relay (.closeSession id))
    : ∃ others',
        Tended others' l'.connections l'.hub ∧
        (l.hub.handle.running = true → t ≠ .relay .openSession → t ≠ .stop →
          others' = others ∧ l'.hub.handle.running = true) := by
  have hsound := htended.sound.turned hturned
  cases hturned with
  | arrives host =>
    refine ⟨others, ⟨hsound, ?_⟩, fun hbefore _ _ => ⟨rfl, hbefore⟩⟩
    dsimp only
    rw [held_arrive]
    exact htended.sessions
  | misses i a => exact ⟨others, htended, fun hbefore _ _ => ⟨rfl, hbefore⟩⟩
  | moves i a c listing next hc hmove =>
    rcases (htended.perm (Trace.perm_of_getElem? hc)).shift hmove.shift with ⟨others', hnext, hothers⟩
    exact ⟨others', hnext.perm (Trace.perm_set hc _).symm, fun hbefore _ _ => hothers hbefore⟩
  | hears e =>
    rcases htended.hears fun id heq => hcloses id (congrArg Turn.relay heq) with ⟨others', hnext, hothers⟩
    refine ⟨others', hnext, ?_⟩
    intro hbefore hopens _
    exact ⟨hothers fun heq => hopens (congrArg Turn.relay heq), hbefore⟩
  | stops =>
    refine ⟨others, ⟨hsound, htended.sessions⟩, ?_⟩
    intro _ _ hstop
    exact absurd rfl hstop

end Tended

/-- What every moment keeps of sessions and registrations. A connection closes its session when it is leaving, and
passes on an offer while it serves. -/
structure Aligned (l : Lobby) : Prop where
  registered : ∀ client ∈ l.hub.roster.clients, ∃ s ∈ l.hub.table.sessions, s.id = client.id ∧ s.name = client.name
  closing : ∀ c ∈ l.connections, ∀ info queue, c.phase = .leaving info queue →
    (l.hub.handle.closeSession info.id).1 = if l.hub.handle.running then .ok () else .error .stopped
  offering : ∀ c ∈ l.connections, ∀ info ice, c.phase = .serving info →
    (l.hub.handle.setIce info.id ice).1 = if l.hub.handle.running then .ok () else .error .stopped

structure Vacated (names : NamePool) (h : Hub) : Prop where
  clients : h.roster.clients = []
  sessions : h.table.sessions = []
  names : h.table.names.free.Perm names.free

theorem Tended.aligned (htended : Tended others l.connections l.hub) : Aligned l := by
  have hopen {c : Connection} {info : SessionInfo} (hc : c ∈ l.connections) (hphase : c.phase.session? = some info)
      : l.hub.table.get? info.id ≠ none := by
    have hheld : info ∈ held l.connections := List.mem_filterMap.2 ⟨c, hc, hphase⟩
    rcases htended.get?_of_mem_held hheld with ⟨s, hget, -⟩
    rw [hget]
    simp
  constructor
  . intro client hclient
    have hinfo : client.info ∈ l.hub.roster.infos := List.mem_map_of_mem hclient
    rw [htended.sound.roster.mem_iff] at hinfo
    rcases htended.get?_of_mem_held ((registered_sublist_held _).subset hinfo) with ⟨s, hget, hs⟩
    exact ⟨s, SessionTable.mem_of_get? hget, congrArg SessionInfo.id hs, congrArg SessionInfo.name hs⟩
  . intro c hc info queue hphase
    apply RelayHandle.closeSession_of_open
    apply hopen hc
    rw [hphase]
    rfl
  . intro c hc info ice hphase
    apply RelayHandle.setIce_of_open
    apply hopen hc
    rw [hphase]
    rfl

theorem Tended.vacated {names : NamePool} (htended : Tended [] l.connections l.hub)
    (hnames : l.hub.table.allNames.Perm names.free) (hended : ∀ c ∈ l.connections, c.phase = .ended)
    : Vacated names l.hub := by
  have hheld : held l.connections = [] := by
    unfold held
    rw [List.filterMap_eq_nil_iff]
    intro c hc
    rw [hended c hc]
    rfl
  have hregistered : registered l.connections = [] := by
    have hsublist := registered_sublist_held l.connections
    rw [hheld] at hsublist
    exact List.sublist_nil.1 hsublist
  have hroster := htended.sound.roster
  rw [hregistered] at hroster
  have hsessions := htended.sessions
  rw [hheld] at hsessions
  have hempty : l.hub.table.sessions = [] := List.map_eq_nil_iff.1 hsessions.eq_nil
  unfold SessionTable.allNames at hnames
  rw [hempty] at hnames
  constructor
  . exact List.map_eq_nil_iff.1 hroster.eq_nil
  . exact hempty
  . exact hnames

section Runs

variable (names : NamePool) (password : String) (settings : Handshake.Settings) (capacity : Nat)
variable (publicAddress : Option String) (fingerprint : String) (relayPort : UInt16) (turns : List Turn) (k : Nat)

theorem tended_start
    : let l := start (Relay.start names password settings capacity) publicAddress fingerprint relayPort
      Tended [] l.connections l.hub := by
  constructor
  . exact sound_after names password settings capacity publicAddress fingerprint relayPort [] 0
  . exact .refl _

theorem perm_allNames_after
    : let l := Trace.after turn
        (start (Relay.start names password settings capacity) publicAddress fingerprint relayPort) turns k
      l.hub.table.allNames.Perm names.free := by
  let initial := start (Relay.start names password settings capacity) publicAddress fingerprint relayPort
  have hsound (i : Nat) : Sound (Trace.after turn initial turns i).connections (Trace.after turn initial turns i).hub :=
    sound_after names password settings capacity publicAddress fingerprint relayPort turns i
  apply Trace.keeps (P := fun l : Lobby => l.hub.table.allNames.Perm names.free) _ (Nat.zero_le k)
  . exact .refl _
  . intro i t ht hperm
    rcases change_turned (Lobby.turned (Trace.after turn initial turns i) t) with ⟨fresh, hchange⟩
    exact (hchange.perm_allNames (hsound i).wellFormed).trans hperm

theorem exists_tended_after (hcloses : ∀ t ∈ turns, ∀ id, t ≠ .relay (.closeSession id))
    : let l := Trace.after turn
        (start (Relay.start names password settings capacity) publicAddress fingerprint relayPort) turns k
      ∃ others, Tended others l.connections l.hub := by
  apply Trace.keeps (P := fun l : Lobby => ∃ others, Tended others l.connections l.hub) _ (Nat.zero_le k)
  . exact ⟨[], tended_start names password settings capacity publicAddress fingerprint relayPort⟩
  . rintro i t ht ⟨others, hbefore⟩
    rcases hbefore.turned (Lobby.turned _ t) (hcloses t (List.mem_of_getElem? ht)) with ⟨others', hnext, -⟩
    exact ⟨others', hnext⟩

theorem tended_after (hcloses : ∀ t ∈ turns, ∀ id, t ≠ .relay (.closeSession id))
    (hopens : ∀ t ∈ turns, t ≠ .relay .openSession ∧ t ≠ .stop)
    : let l := Trace.after turn
        (start (Relay.start names password settings capacity) publicAddress fingerprint relayPort) turns k
      Tended [] l.connections l.hub ∧ l.hub.handle.running = true := by
  apply Trace.keeps (P := fun l : Lobby => Tended [] l.connections l.hub ∧ l.hub.handle.running = true) _
    (Nat.zero_le k)
  . exact ⟨tended_start names password settings capacity publicAddress fingerprint relayPort, rfl⟩
  . rintro i t ht ⟨hbefore, hrunning⟩
    have hmem := List.mem_of_getElem? ht
    rcases hbefore.turned (Lobby.turned _ t) (hcloses t hmem) with ⟨others', hnext, hothers⟩
    rcases hothers hrunning (hopens t hmem).1 (hopens t hmem).2 with ⟨rfl, hrunning'⟩
    exact ⟨hnext, hrunning'⟩

/-- As long as no other party closes sessions. When all connections have ended, nothing is left behind if no other party
has opened any session either and the relay has not been stopped. -/
theorem sessions_follow_connections (hcloses : ∀ t ∈ turns, ∀ id, t ≠ .relay (.closeSession id))
    : let l := Trace.after turn
        (start (Relay.start names password settings capacity) publicAddress fingerprint relayPort) turns k
      Aligned l ∧
      ((∀ t ∈ turns, t ≠ .relay .openSession ∧ t ≠ .stop) → (∀ c ∈ l.connections, c.phase = .ended) →
        Vacated names l.hub) := by
  intro l
  constructor
  . rcases exists_tended_after names password settings capacity publicAddress fingerprint relayPort turns k hcloses with
      ⟨others, htended⟩
    exact htended.aligned
  . intro hopens hended
    have htended := tended_after names password settings capacity publicAddress fingerprint relayPort turns k hcloses
      hopens
    have hnames := perm_allNames_after names password settings capacity publicAddress fingerprint relayPort turns k
    exact htended.1.vacated hnames hended

end Runs

section Sample

def sampleVisit : List Turn :=
  [.lobby (.arrive none)] ++ sampleSteps 0 5 ++
    [.lobby (.act 0 .leave), .lobby (.act 0 .write), .lobby (.act 0 .write)] ++ sampleSteps 0 3

theorem sessions_follow_connections_sampleVisit
    : let l := Trace.after turn sampleStart sampleVisit
      (∀ t ∈ sampleVisit, (∀ id, t ≠ .relay (.closeSession id)) ∧ t ≠ .relay .openSession ∧ t ≠ .stop) ∧
      (l 6).hub.roster.infos = [⟨.base, "Ada"⟩] ∧ Aligned (l 6) ∧
      (l 12).connections.map (·.phase) = [.ended] ∧ Vacated ⟨["Ada", "Ben"]⟩ (l 12).hub := by
  have hturns : ∀ t ∈ sampleVisit, (∀ id, t ≠ .relay (.closeSession id)) ∧ t ≠ .relay .openSession ∧ t ≠ .stop := by
    simp [sampleVisit, sampleSteps]
  have hrun := sessions_follow_connections ⟨["Ada", "Ben"]⟩ "" {} 4 none "" 0 sampleVisit
  refine ⟨hturns, ?_, (hrun 6 fun t ht => (hturns t ht).1).1, ?_, ?_⟩
  . decide +kernel
  . decide +kernel
  . apply (hrun 12 fun t ht => (hturns t ht).1).2
    . intro t ht
      exact (hturns t ht).2
    . decide +kernel

end Sample

end Intercom.Signaling
