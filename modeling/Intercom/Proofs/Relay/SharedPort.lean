import Mathlib
import Intercom.Proofs.Relay.Forwarding
import Intercom.Proofs.Stun.Acceptance

/-!
This module contains that the protocols on the port of the relay have no datagram in common, as far as it fits
the buffer for what is received. So the order in which they are tried makes no difference.
-/

namespace Intercom.Relay

inductive Protocol where
  | audio
  | stun
  | dtls
deriving DecidableEq

/-- A datagram that is of a protocol by its form. A malformed message is still one. -/
def Protocol.Claims : Protocol → Bytes → Prop
  | audio, octets => Rtp.decode? octets ≠ none
  | stun, octets => Stun.decode octets ≠ .error .notStun
  | dtls, octets => Dtls.isRecord octets

def attempt (r : Relay) (octets : Bytes) (sender : Endpoint) : Protocol → Option (Option SessionId) × Relay
  | .audio =>
    let (taken, r) := r.receiveAudio octets sender
    (if taken then some none else none, r)
  | .stun =>
    match r.receiveStun octets sender with
    | some (started, r) => (some started, r)
    | none => (none, r)
  | .dtls => if Dtls.isRecord octets then (some none, r.receiveRecord octets sender) else (none, r)

def tryInTurn (r : Relay) (octets : Bytes) (sender : Endpoint) : List Protocol → Option SessionId × Relay
  | [] => (none, r)
  | p :: ps =>
    match r.attempt octets sender p with
    | (some started, r) => (started, r)
    | (none, r) => r.tryInTurn octets sender ps

section Forms

variable {octets : Bytes} {p q : Protocol}

def bufferLength : Nat := 1472

theorem declaredLength_of_isRecord (h : Dtls.isRecord octets) : 0xFD00 ≤ Stun.declaredLength octets := by
  unfold Dtls.isRecord at h
  split at h
  . next type major minor rest =>
    simp only [Bool.and_eq_true, Bool.or_eq_true, beq_iff_eq, decide_eq_true_eq] at h
    rcases h with ⟨⟨⟨⟨hlength, -⟩, -⟩, -⟩, hminor⟩
    rcases rest with _ | ⟨low, rest⟩
    . simp at hlength
    . have hdeclared : Stun.declaredLength (type :: major :: minor :: low :: rest) = minor.toNat * 256 + low.toNat := by
        simp [Stun.declaredLength, Bytes.toNat_cons, Bytes.toNat_nil]
      rw [hdeclared]
      rcases hminor with rfl | rfl
      . change 0xFD00 ≤ 0xFF * 256 + low.toNat
        omega
      . change 0xFD00 ≤ 0xFD * 256 + low.toNat
        omega
  . simp at h

theorem framed_of_claims (h : Protocol.stun.Claims octets) : Stun.Framed octets := by
  cases hheader : Stun.readHeader octets with
  | none =>
    have hdecode : Stun.decode octets = .error .notStun := by
      unfold Stun.decode
      rw [hheader]
    exact absurd hdecode h
  | some header => exact Stun.framed_of_readHeader hheader

/-- The two top bits of the first octet are 10 in audio and 00 in the others. -/
theorem top_of_claims (h : p.Claims octets) : octets.headD 0 &&& 0xC0 = if p = .audio then 0x80 else 0 := by
  cases p with
  | audio =>
    rcases Option.ne_none_iff_exists'.1 h with ⟨packet, hpacket⟩
    exact Rtp.version_of_decode? hpacket
  | stun => exact (framed_of_claims h).top
  | dtls =>
    have hrecord : Dtls.isRecord octets := h
    unfold Dtls.isRecord at hrecord
    split at hrecord
    . next type major minor rest =>
      simp only [Bool.and_eq_true, decide_eq_true_eq, UInt8.le_iff_toNat_le] at hrecord
      rcases hrecord with ⟨⟨⟨-, hle⟩, -⟩, -⟩
      rw [List.headD_cons, if_neg (by decide), Stun.and_top_eq_zero_iff type 0]
      change type.toNat ≤ 63 at hle
      simp only [Bytes.toNat_cons, Bytes.toNat_nil, List.length_cons, List.length_nil, UInt8.toNat_zero]
      omega
    . simp at hrecord

theorem not_record_of_claims (hlength : octets.length < Stun.headerLength + 0xFD00)
    (h : Protocol.stun.Claims octets) : ¬ Protocol.dtls.Claims octets := by
  intro hrecord
  have hdeclared := declaredLength_of_isRecord hrecord
  have hfits := (framed_of_claims h).length
  omega

def longAttribute : Stun.Attribute :=
  ⟨Stun.Role.ignored.type, List.replicate 0xFCFC 0, []⟩

def longRecord : Bytes :=
  [20, 0xFE, 0xFD, 0] ++ Bytes.ofNat 4 Stun.cookie.toNat ++ List.replicate 12 0 ++ longAttribute.bytes

theorem length_value_longAttribute : longAttribute.value.length = 0xFCFC := by
  apply List.length_replicate

theorem length_longAttribute : longAttribute.bytes.length = 0xFD00 := by
  have hpadding : longAttribute.padding.length = 0 := rfl
  rw [Stun.Attribute.length_bytes, length_value_longAttribute, hpadding]

theorem length_longRecord : longRecord.length = Stun.headerLength + 0xFD00 := by
  unfold longRecord
  rw [List.length_append, length_longAttribute]
  rfl

theorem grammar_longRecord : Stun.Grammar longRecord [longAttribute] := by
  have hdeclared : Stun.declaredLength longRecord = 0xFD00 := rfl
  have hlength := length_longRecord
  constructor
  . constructor
    . omega
    . rfl
    . omega
    . rfl
  . intro a ha
    rw [List.mem_singleton.1 ha]
    constructor
    . rw [length_value_longAttribute]
      decide
    . rw [length_value_longAttribute]
      decide
  . have hfront : ([20, 0xFE, 0xFD, 0] ++ Bytes.ofNat 4 Stun.cookie.toNat ++ List.replicate 12 0 : Bytes).length =
        Stun.headerLength := rfl
    rw [hdeclared, List.flatMap_singleton]
    unfold longRecord
    rw [List.drop_left' hfront, List.take_of_length_le]
    rw [length_longAttribute]
  . intro front a rest hsplit hoffends
    have ha : a ∈ [longAttribute] := by
      rw [hsplit]
      simp
    rw [List.mem_singleton] at ha
    have hrole : a.role = .ignored := by
      rw [ha]
      rfl
    cases hoffends with
    | fingerprint h => simp [hrole] at h
    | unknown _ hlt _ =>
      rw [ha] at hlt
      exact absurd hlt (by decide)
    | tag _ h => simp [hrole] at h
    | shape _ _ h =>
      rw [hrole] at h
      exact h trivial

theorem isRecord_append (body : Bytes)
    : Dtls.isRecord ([20, 0xFE, 0xFD, 0] ++ Bytes.ofNat 4 Stun.cookie.toNat ++ List.replicate 12 0 ++ body) := by
  simp [Dtls.isRecord]
  omega

theorem isRecord_longRecord : Dtls.isRecord longRecord := by
  unfold longRecord
  apply isRecord_append

/-- One octet more than in the lemma before, and a record can be a message too. -/
theorem claims_longRecord : Protocol.stun.Claims longRecord ∧ Protocol.dtls.Claims longRecord := by
  constructor
  . unfold Protocol.Claims
    dsimp only
    rw [Stun.decode_of_grammar grammar_longRecord]
    simp
  . exact isRecord_longRecord

theorem eq_of_claims (hlength : octets.length ≤ bufferLength) (hp : p.Claims octets) (hq : q.Claims octets)
    : p = q := by
  have hlength : octets.length < Stun.headerLength + 0xFD00 := by
    unfold bufferLength at hlength
    unfold Stun.headerLength
    omega
  have htop := (top_of_claims hp).symm.trans (top_of_claims hq)
  cases p with
  | audio =>
    cases q with
    | audio => rfl
    | stun | dtls => simp at htop
  | stun =>
    cases q with
    | audio => simp at htop
    | stun => rfl
    | dtls => exact absurd hq (not_record_of_claims hlength hp)
  | dtls =>
    cases q with
    | audio => simp at htop
    | stun => exact absurd hp (not_record_of_claims hlength hq)
    | dtls => rfl

end Forms

section Order

variable {r : Relay} {octets : Bytes} {sender : Endpoint} {p : Protocol} {ps qs : List Protocol}

theorem attempt_of_not_claims (h : ¬ p.Claims octets) : r.attempt octets sender p = (none, r) := by
  unfold Protocol.Claims at h
  unfold attempt
  cases p with
  | audio =>
    have hunprotect := fun c : Srtp.Context => c.unprotect_of_decode?_eq_none (not_not.1 h)
    have haudio : r.receiveAudio octets sender = (false, r) := by
      unfold receiveAudio
      cases r.sender? sender with
      | none => rfl
      | some source =>
        dsimp only
        rw [hunprotect]
        split
        . next heq => simp at heq
        . next heq =>
          rw [Except.error.injEq] at heq
          split at heq
          . simp at heq
          . simp at heq
        . rfl
    dsimp only
    rw [haudio]
    rfl
  | stun =>
    unfold receiveStun
    dsimp only
    rw [not_not.1 h]
  | dtls =>
    dsimp only
    rw [if_neg h]

theorem tryInTurn_of_not_claims (h : ∀ p ∈ ps, ¬ p.Claims octets) : r.tryInTurn octets sender ps = (none, r) := by
  induction ps with
  | nil => rfl
  | cons p ps ih =>
    unfold tryInTurn
    rw [attempt_of_not_claims (h p List.mem_cons_self)]
    apply ih
    intro q hq
    exact h q (List.mem_cons_of_mem p hq)

theorem tryInTurn_eq_attempt (hp : p ∈ ps) (honly : ∀ q ∈ ps, q.Claims octets → q = p) (hnodup : ps.Nodup)
    : r.tryInTurn octets sender ps = ((r.attempt octets sender p).1.join, (r.attempt octets sender p).2) := by
  induction ps with
  | nil => simp at hp
  | cons q qs ih =>
    rw [List.nodup_cons] at hnodup
    have hrest : ∀ p' ∈ qs, p'.Claims octets → p' = p := fun p' hp' => honly p' (List.mem_cons_of_mem q hp')
    unfold tryInTurn
    by_cases hq : q = p
    . rw [hq]
      generalize r.attempt octets sender p = tried
      rcases tried with ⟨_ | started, after⟩
      . apply tryInTurn_of_not_claims
        intro p' hp' hclaims
        rw [hrest p' hp' hclaims, ← hq] at hp'
        exact hnodup.1 hp'
      . rfl
    . rw [attempt_of_not_claims (fun hclaims => hq (honly q List.mem_cons_self hclaims))]
      apply ih _ hrest hnodup.2
      exact List.mem_of_ne_of_mem (Ne.symm hq) hp

theorem tryInTurn_eq_of_perm (hperm : ps.Perm qs) (hnodup : ps.Nodup)
    (hunique : ∀ p q : Protocol, p.Claims octets → q.Claims octets → p = q)
    : r.tryInTurn octets sender ps = r.tryInTurn octets sender qs := by
  by_cases hclaimed : ∃ p ∈ ps, p.Claims octets
  . rcases hclaimed with ⟨p, hp, hclaims⟩
    rw [tryInTurn_eq_attempt hp (fun q _ hq => hunique q p hq hclaims) hnodup]
    rw [tryInTurn_eq_attempt (hperm.mem_iff.1 hp) (fun q _ hq => hunique q p hq hclaims) (hperm.nodup_iff.1 hnodup)]
  . push Not at hclaimed
    rw [tryInTurn_of_not_claims hclaimed, tryInTurn_of_not_claims]
    intro p hp
    exact hclaimed p (hperm.mem_iff.2 hp)

theorem receive_eq_tryInTurn (r : Relay) (octets : Bytes) (sender : Endpoint)
    : r.receive octets sender = r.count.tryInTurn octets sender [.audio, .stun, .dtls] := by
  simp only [tryInTurn, attempt]
  cases haudio : r.count.receiveAudio octets sender with
  | mk taken missed =>
    cases taken with
    | true =>
      rw [receive_of_audio haudio]
      rfl
    | false =>
      cases hstun : missed.receiveStun octets sender with
      | some answered =>
        rw [receive_of_stun haudio hstun]
        simp [hstun]
      | none =>
        rw [receive_of_not_stun haudio hstun]
        simp only [hstun, Bool.false_eq_true, if_false]
        split
        . rfl
        . rfl

theorem receive_in_any_order (hlength : octets.length ≤ bufferLength)
    : (∀ p q : Protocol, p.Claims octets → q.Claims octets → p = q) ∧
      ∀ r : Relay, r.Reachable → ∀ sender order, order.Perm [.audio, .stun, .dtls] →
        r.count.tryInTurn octets sender order = r.receive octets sender := by
  have hunique : ∀ p q : Protocol, p.Claims octets → q.Claims octets → p = q := by
    intro p q hp hq
    exact eq_of_claims hlength hp hq
  refine ⟨hunique, ?_⟩
  intro r _ sender order horder
  rw [receive_eq_tryInTurn]
  apply tryInTurn_eq_of_perm horder
  . rw [horder.nodup_iff]
    decide
  . exact hunique

theorem receive_in_any_order_sampleAudio
    : (sampleAudio 5).length ≤ bufferLength ∧ samplePair.Reachable ∧
      [Protocol.dtls, .stun, .audio].Perm [.audio, .stun, .dtls] ∧
      samplePair.count.tryInTurn (sampleAudio 5) sampleEndpoint [.dtls, .stun, .audio] =
        samplePair.receive (sampleAudio 5) sampleEndpoint := by
  have hlength : (sampleAudio 5).length ≤ bufferLength := by
    unfold sampleAudio
    rw [Srtp.Direction.length_protect]
    decide
  have hreachable : samplePair.Reachable := ⟨_, _, _, _, _, rfl⟩
  have hperm : [Protocol.dtls, .stun, .audio].Perm [.audio, .stun, .dtls] := by decide
  exact ⟨hlength, hreachable, hperm, (receive_in_any_order hlength).2 samplePair hreachable _ _ hperm⟩

end Order

end Intercom.Relay
