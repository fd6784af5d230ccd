import IsoLightK0.Tls.Handshake

/-!
# What the TLS operations can change

A program of the handshake changes the state only by drawing from the DRBG and
by working on the slots of its two handles.  An invariant of the pool that
survives the work on these slots therefore survives the handshake, however it
ends.
-/

namespace IsoLightK0

open Bytes Triples

namespace TlsProg

section Primitives

variable {α : Type}

theorem eval_compute (r : Except TlsStop α) (s : TlsState) :
    (compute r).eval s = (r, s) := by
  cases r with
  | error e => rfl
  | ok a => rfl

theorem slot_cases (h : ConnHandle) (s : TlsState) :
    (∃ e, (slot h).eval s = (.error e, s)) ∨
      ∃ i c, connIdx? h = some i ∧ s.pool i = some c ∧
        (slot h).eval s = (.ok (i, c), s) := by
  unfold slot
  rw [Prog.eval_get_bind]
  cases connIdx? h with
  | none => exact .inl ⟨_, rfl⟩
  | some i =>
    dsimp only
    cases hc : s.pool i with
    | none => exact .inl ⟨_, rfl⟩
    | some c => exact .inr ⟨i, c, rfl, hc, rfl⟩

theorem withSlot_cases (h : ConnHandle)
    (f : TlsConnection → Except TlsStop (α × TlsConnection)) (s : TlsState) :
    (∃ e, (withSlot h f).eval s = (.error e, s)) ∨
      ∃ i c a c', connIdx? h = some i ∧ s.pool i = some c ∧
        f c = .ok (a, c') ∧
        (withSlot h f).eval s =
          (.ok a, { s with pool := Function.update s.pool i (some c') }) := by
  unfold withSlot
  rw [Prog.eval_bind]
  rcases slot_cases h s with ⟨e, heval⟩ | ⟨i, c, hidx, hc, heval⟩
  · rw [heval]
    exact .inl ⟨e, rfl⟩
  · rw [heval]
    dsimp only
    rw [Prog.eval_bind, eval_compute]
    cases hfc : f c with
    | error e => exact .inl ⟨e, rfl⟩
    | ok result =>
      exact .inr ⟨i, c, result.1, result.2, hidx, hc, hfc, rfl⟩

variable {I : TlsState → Prop}

theorem keeps_failIf (c : Prop) [Decidable c] (e : TlsError) :
    Keeps I (failIf c e) :=
  Keeps.exitIf c _

theorem keeps_compute (r : Except TlsStop α) : Keeps I (compute r) := by
  intro s hs
  rw [eval_compute]
  exact hs

theorem keeps_slot (h : ConnHandle) : Keeps I (slot h) := by
  intro s hs
  rcases slot_cases h s with ⟨e, heval⟩ | ⟨i, c, -, -, heval⟩
  · rw [heval]
    exact hs
  · rw [heval]
    exact hs

theorem keeps_withSlot (h : ConnHandle)
    {f : TlsConnection → Except TlsStop (α × TlsConnection)}
    (hf : ∀ s i c a c', I s → connIdx? h = some i → s.pool i = some c →
      f c = .ok (a, c') →
      I { s with pool := Function.update s.pool i (some c') }) :
    Keeps I (withSlot h f) := by
  intro s hs
  rcases withSlot_cases h f s with
    ⟨e, heval⟩ | ⟨i, c, a, c', hidx, hc, hok, heval⟩
  · rw [heval]
    exact hs
  · rw [heval]
    exact hf s i c a c' hs hidx hc hok

/-- The invariant does not speak about the DRBG. -/
def IgnoresDrbg (I : TlsState → Prop) : Prop :=
  ∀ s drbg, I s → I { s with drbg := drbg }

theorem keeps_randBytes32 (hI : IgnoresDrbg I) : Keeps I randBytes32 := by
  intro s hs
  unfold randBytes32
  rw [Prog.eval_get_bind]
  split
  · exact hs
  · exact hI s _ hs
  · exact hI s _ hs

end Primitives

/-! ## The sections of the handshake -/

section Handshake

variable (T : TlsCrates) {I : TlsState → Prop}

theorem keeps_transcriptHash (h : ConnHandle) :
    Keeps I (transcriptHash T h) :=
  (keeps_slot h).bind fun _ => Keeps.pure _

theorem keeps_ephemeralKeys (hI : IgnoresDrbg I) (policy : KexPolicy) :
    Keeps I (ephemeralKeys T policy) := by
  unfold ephemeralKeys
  refine (keeps_randBytes32 hI).bind fun _ => ?_
  refine (keeps_randBytes32 hI).bind fun _ => ?_
  split
  · refine (keeps_randBytes32 hI).bind fun _ => ?_
    exact (keeps_randBytes32 hI).bind fun _ => Keeps.pure _
  · exact Keeps.pure _

theorem keeps_clientHello (hI : IgnoresDrbg I) (policy : KexPolicy)
    (suite : CipherSuite) (pskId : PskId) (keys : Ephemeral)
    (cSecrets sSecrets : ScheduleSecrets) :
    Keeps I (clientHello T policy suite pskId keys cSecrets sSecrets) := by
  unfold clientHello
  refine (keeps_compute _).bind fun _ => ?_
  refine (keeps_randBytes32 hI).bind fun _ => ?_
  refine (keeps_compute _).bind fun _ => ?_
  refine (keeps_compute _).bind fun _ => ?_
  refine (keeps_compute _).bind fun _ => ?_
  exact (keeps_failIf _ _).bind fun _ => Keeps.pure _

theorem keeps_serverHello (hI : IgnoresDrbg I) (policy : KexPolicy)
    (suite : CipherSuite) (keys : Ephemeral) :
    Keeps I (serverHello T policy suite keys) := by
  unfold serverHello
  refine (keeps_compute _).bind fun _ => ?_
  refine (keeps_randBytes32 hI).bind fun _ => ?_
  dsimp only
  split
  · exact Keeps.throw _
  · split
    · exact Keeps.throw _
    · refine (keeps_failIf _ _).bind fun _ => ?_
      split
      · exact Keeps.pure _
      · split
        · exact Keeps.throw _
        · refine (keeps_randBytes32 hI).bind fun _ => ?_
          split
          · exact Keeps.throw _
          · exact (keeps_failIf _ _).bind fun _ => Keeps.pure _

/-- The invariant survives the work of the handshake on the slots of the two
handles: every such step keeps the profile of the connection. -/
def AllowsWork (I : TlsState → Prop) (clientH serverH : ConnHandle) : Prop :=
  ∀ s h i c c', I s → h = clientH ∨ h = serverH → connIdx? h = some i →
    s.pool i = some c → c'.profile = c.profile →
    I { s with pool := Function.update s.pool i (some c') }

variable {clientH serverH : ConnHandle} (hwork : AllowsWork I clientH serverH)

include hwork

theorem keeps_updateTranscript {h : ConnHandle} (hh : h = clientH ∨ h = serverH)
    (msg : List Byte) :
    Keeps I (updateTranscript h msg) := by
  apply keeps_withSlot
  intro s i c a c' hs hidx hc hok
  apply hwork s h i c c' hs hh hidx hc
  split at hok
  · cases hok
  · cases hok
    rfl

theorem keeps_updateTranscripts (msg : List Byte) :
    Keeps I (updateTranscripts clientH serverH msg) :=
  (keeps_updateTranscript hwork (.inl rfl) msg).bind fun _ =>
    keeps_updateTranscript hwork (.inr rfl) msg

theorem keeps_exchangeFinished (sender receiver hash : Buf 32) :
    Keeps I (exchangeFinished T clientH serverH sender receiver hash) := by
  unfold exchangeFinished
  refine (keeps_compute _).bind fun _ => ?_
  refine (keeps_compute _).bind fun _ => ?_
  refine (keeps_compute _).bind fun _ => ?_
  refine (keeps_failIf _ _).bind fun _ => ?_
  exact keeps_updateTranscripts hwork _

theorem keeps_installKeys {h : ConnHandle} (hh : h = clientH ∨ h = serverH)
    (writeSecret readSecret : Buf 32) :
    Keeps I (installKeys T h writeSecret readSecret) := by
  apply keeps_withSlot
  intro s i c a c' hs hidx hc hok
  apply hwork s h i c c' hs hh hidx hc
  obtain ⟨writeKeys, -, hrest⟩ := exists_of_bind_eq_ok hok
  obtain ⟨readKeys, -, heq⟩ := exists_of_bind_eq_ok hrest
  cases heq
  rfl

theorem keeps_doHandshakeBy (hI : IgnoresDrbg I)
    (clientHsm serverHsm : HsmDriver) (policy : KexPolicy) (suite : CipherSuite)
    (pskId : PskId) :
    Keeps I (doHandshakeBy T clientHsm serverHsm clientH serverH policy suite
      pskId) := by
  unfold doHandshakeBy
  refine (keeps_ephemeralKeys T hI policy).bind fun _ => ?_
  refine (keeps_failIf _ _).bind fun _ => ?_
  refine (keeps_compute _).bind fun _ => ?_
  refine (keeps_compute _).bind fun _ => ?_
  refine (keeps_clientHello T hI _ _ _ _ _ _).bind fun _ => ?_
  refine (keeps_updateTranscripts hwork _).bind fun _ => ?_
  refine (keeps_serverHello T hI _ _ _).bind fun _ => ?_
  refine (keeps_updateTranscripts hwork _).bind fun _ => ?_
  refine (keeps_transcriptHash T _).bind fun _ => ?_
  refine (keeps_compute _).bind fun _ => ?_
  refine (keeps_compute _).bind fun _ => ?_
  refine (keeps_exchangeFinished T hwork _ _ _).bind fun _ => ?_
  refine (keeps_transcriptHash T _).bind fun _ => ?_
  refine (keeps_exchangeFinished T hwork _ _ _).bind fun _ => ?_
  refine (keeps_transcriptHash T _).bind fun _ => ?_
  refine (keeps_compute _).bind fun _ => ?_
  refine (keeps_compute _).bind fun _ => ?_
  refine (keeps_installKeys T hwork (.inl rfl) _ _).bind fun _ => ?_
  exact keeps_installKeys T hwork (.inr rfl) _ _

end Handshake

end TlsProg

end IsoLightK0
