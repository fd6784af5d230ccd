import IsoLightK0.Keystore.Model
import IsoLightK0.Support.Runs

/-!
# The life of a slot

Runs of `provision`, `psk_destroy` and `wipe_all` from a new keystore.  A call
either fills one `Empty` slot or leaves every slot as it was or wiped; all
invariants are read off from that.  Wiping rewrites the identifier of the slot
to `PskId::ZERO`, which is where the documented lifecycle is lost: a destroyed
identifier is forgotten, and every wiped slot looks like one that was destroyed
under the identifier `ZERO`.
-/

namespace IsoLightK0

open Bytes Runs

inductive KeystoreCall
  | provision (id : PskId) (material : List Byte)
  | pskDestroy (id : PskId)
  | wipeAll

inductive KeystoreReply
  | provision (r : Except KeystoreError Unit)
  | pskDestroy (r : Except HsmError Unit)
  | wipeAll

def SoftKeystore.call (k : SoftKeystore) :
    KeystoreCall → KeystoreReply × SoftKeystore
  | .provision id material =>
    (.provision (k.provision id material).1, (k.provision id material).2)
  | .pskDestroy id => (.pskDestroy (k.pskDestroy id).1, (k.pskDestroy id).2)
  | .wipeAll => (.wipeAll, k.wipeAll)

/-- A keystore with an auxiliary variable: the identifier under which each slot
was filled, which the slot itself forgets when it is wiped. -/
structure TrackedKeystore where
  store : SoftKeystore
  source : PskIdx → Option PskId

namespace TrackedKeystore

def new : TrackedKeystore := ⟨.new, fun _ => none⟩

/-- The slot that `provision` has filled is the one that was `Empty` before and
is not any more. -/
def nextSource (s : TrackedKeystore) (c : KeystoreCall)
    (after : SoftKeystore) (i : PskIdx) : Option PskId :=
  match c with
  | .provision id _ =>
    if (s.store.slots i).state = .empty ∧
        (after.slots i).state = .provisioned then
      some id
    else
      s.source i
  | _ => s.source i

def call (s : TrackedKeystore) (c : KeystoreCall) :
    KeystoreReply × TrackedKeystore :=
  ((s.store.call c).1,
    ⟨(s.store.call c).2, s.nextSource c (s.store.call c).2⟩)

def step (s : TrackedKeystore) (c : KeystoreCall) :
    Option (KeystoreReply × TrackedKeystore) :=
  some (s.call c)

end TrackedKeystore

abbrev KeystoreEvent := KeystoreCall × KeystoreReply

/-- The material that an event has stored under the identifier. -/
def KeystoreEvent.stored (id : PskId) : KeystoreEvent → Option (List Byte)
  | (.provision id' material, .provision (.ok _)) =>
    if id' = id then some material else none
  | _ => none

/-- The material that was last provisioned under the identifier; histories
list the latest event first. -/
def lastProvisioned (history : List KeystoreEvent) (id : PskId) :
    Option (List Byte) :=
  history.findSome? (KeystoreEvent.stored id)

/-- The identifier was successfully provisioned in the history. -/
def EverProvisioned (history : List KeystoreEvent) (id : PskId) : Prop :=
  ∃ event ∈ history, (KeystoreEvent.stored id event).isSome = true

instance decidableEverProvisioned (history : List KeystoreEvent)
    (id : PskId) : Decidable (EverProvisioned history id) :=
  inferInstanceAs (Decidable
    (∃ event ∈ history, (KeystoreEvent.stored id event).isSome = true))

namespace TrackedKeystore

variable {s s' : TrackedKeystore} {c : KeystoreCall} {r : KeystoreReply}

inductive Effect (s s' : TrackedKeystore) : KeystoreEvent → Prop
  | filled (id : PskId) (material : List Byte) (i : PskIdx) :
      1 ≤ material.length → material.length ≤ maxPskLen →
      (∀ j, ¬ s.store.CarriesId j id) →
      (s.store.slots i).state = .empty →
      s'.store = s.store.setSlot i ((s.store.slots i).fill id material) →
      s'.source = Function.update s.source i (some id) →
      Effect s s' (.provision id material, .provision (.ok ()))
  | kept (event : KeystoreEvent) :
      (∀ id, KeystoreEvent.stored id event = none) →
      (∀ i, s'.store.slots i = s.store.slots i ∨
        s'.store.slots i = PskSlot.wiped) →
      s'.source = s.source →
      Effect s s' event

variable {i : PskIdx} {id : PskId} {event : KeystoreEvent}
  {history : List KeystoreEvent}

theorem nextSource_of_slot_eq {after : SoftKeystore}
    (hsame : after.slots i = s.store.slots i) :
    s.nextSource c after i = s.source i := by
  have hstill : ¬ ((s.store.slots i).state = .empty ∧
      (s.store.slots i).state = .provisioned) := by
    rintro ⟨hempty, hprov⟩
    rw [hempty] at hprov
    contradiction
  cases c with
  | provision id material =>
    rw [nextSource, hsame]
    exact if_neg hstill
  | pskDestroy id => rfl
  | wipeAll => rfl

theorem effect_of_step (h : s.step c = some (r, s')) : s.Effect s' (c, r) := by
  obtain ⟨rfl, rfl⟩ : (s.store.call c).1 = r ∧
      ⟨(s.store.call c).2, s.nextSource c (s.store.call c).2⟩ = s' := by
    simpa [step, call] using h
  cases c with
  | provision id material =>
    rcases s.store.provision_cases id material with
      ⟨e, heq, -⟩ | ⟨i, heq, hpos, hmax, hfresh, hempty⟩
    · rw [SoftKeystore.call, heq]
      refine .kept _ (fun _ => rfl) (fun i => .inl rfl) ?_
      funext i
      dsimp only
      exact nextSource_of_slot_eq rfl
    · rw [SoftKeystore.call, heq]
      refine .filled id material i hpos hmax hfresh hempty rfl ?_
      funext j
      by_cases hj : j = i
      · subst hj
        simp [nextSource, hempty, PskSlot.fill]
      · rw [Function.update_of_ne hj]
        dsimp only
        exact nextSource_of_slot_eq (SoftKeystore.slots_setSlot_of_ne _ hj _)
  | pskDestroy id =>
    rcases s.store.pskDestroy_cases id with ⟨heq, -⟩ | ⟨i, heq, -⟩
    · rw [SoftKeystore.call, heq]
      exact .kept _ (fun _ => rfl) (fun i => .inl rfl) rfl
    · rw [SoftKeystore.call, heq]
      refine .kept _ (fun _ => rfl) (fun j => ?_) rfl
      by_cases hj : j = i
      · subst hj
        exact .inr (SoftKeystore.slots_setSlot_self _ _ _)
      · exact .inl (SoftKeystore.slots_setSlot_of_ne _ hj _)
  | wipeAll => exact .kept _ (fun _ => rfl) (fun _ => .inr rfl) rfl

/-! ## The invariant of every run -/

/-- What holds of the slots, and of the slots and the history, after any
calls. -/
structure Invariant (history : List KeystoreEvent) (s : TrackedKeystore) :
    Prop where
  blank : ∀ i, (s.store.slots i).state ≠ .provisioned →
    (s.store.slots i).id = PskId.zero ∧
      (s.store.slots i).material = Buf.zero ∧
      (s.store.slots i).materialLen = 0
  len_pos : ∀ i id, s.store.ProvisionedAs i id →
    0 < (s.store.slots i).materialLen
  distinct : ∀ i j id, s.store.ProvisionedAs i id →
    s.store.ProvisionedAs j id → i = j
  stored : ∀ i id, s.store.ProvisionedAs i id →
    lastProvisioned history id = some (s.store.slots i).psk
  source_eq : ∀ i id, s.store.ProvisionedAs i id → s.source i = some id
  zero_kept : EverProvisioned history PskId.zero →
    ∃ i, s.store.CarriesId i PskId.zero

theorem invariant_new : Invariant [] TrackedKeystore.new := by
  have hnot : ∀ i id, ¬ TrackedKeystore.new.store.ProvisionedAs i id := by
    rintro i id ⟨hstate, -⟩
    contradiction
  refine ⟨fun i _ => ⟨rfl, rfl, rfl⟩, ?_, ?_, ?_, ?_, ?_⟩
  · intro i id h
    exact (hnot i id h).elim
  · intro i j id h
    exact (hnot i id h).elim
  · intro i id h
    exact (hnot i id h).elim
  · intro i id h
    exact (hnot i id h).elim
  · rintro ⟨event, hmem, -⟩
    simp at hmem

theorem provisionedAs_of_kept
    (hslots : ∀ i, s'.store.slots i = s.store.slots i ∨
      s'.store.slots i = PskSlot.wiped) (h : s'.store.ProvisionedAs i id) :
    s.store.ProvisionedAs i id ∧ s'.store.slots i = s.store.slots i := by
  rcases hslots i with hsame | hwiped
  · refine ⟨?_, hsame⟩
    rwa [SoftKeystore.ProvisionedAs, hsame] at h
  · rw [SoftKeystore.ProvisionedAs, hwiped] at h
    exact absurd h.1 (by decide)

theorem provisionedAs_of_filled {material : List Byte}
    (hfresh : ∀ j, ¬ s.store.CarriesId j id)
    (hstore : s'.store = s.store.setSlot i ((s.store.slots i).fill id material))
    {j : PskIdx} {id' : PskId} (h : s'.store.ProvisionedAs j id') :
    (j = i ∧ id' = id ∧
      s'.store.slots j = (s.store.slots i).fill id material) ∨
    (j ≠ i ∧ id' ≠ id ∧ s.store.ProvisionedAs j id' ∧
      s'.store.slots j = s.store.slots j) := by
  by_cases hj : j = i
  · subst hj
    have hslot : s'.store.slots j = (s.store.slots j).fill id material := by
      rw [hstore, SoftKeystore.slots_setSlot_self]
    rw [SoftKeystore.ProvisionedAs, hslot] at h
    exact .inl ⟨rfl, h.2.symm, hslot⟩
  · have hslot : s'.store.slots j = s.store.slots j := by
      rw [hstore, SoftKeystore.slots_setSlot_of_ne _ hj]
    rw [SoftKeystore.ProvisionedAs, hslot] at h
    have hbefore : s.store.ProvisionedAs j id' := h
    refine .inr ⟨hj, ?_, hbefore, hslot⟩
    rintro rfl
    exact hfresh j hbefore.carriesId

theorem lastProvisioned_cons_self (id : PskId) (material : List Byte)
    (history : List KeystoreEvent) :
    lastProvisioned ((.provision id material, .provision (.ok ())) :: history)
      id = some material := by
  simp [lastProvisioned, KeystoreEvent.stored]

theorem lastProvisioned_cons_of_none
    (hnone : KeystoreEvent.stored id event = none)
    (history : List KeystoreEvent) :
    lastProvisioned (event :: history) id = lastProvisioned history id := by
  rw [lastProvisioned, List.findSome?_cons, hnone, lastProvisioned]

theorem everProvisioned_cons_iff (event : KeystoreEvent)
    (history : List KeystoreEvent) (id : PskId) :
    EverProvisioned (event :: history) id ↔
      (KeystoreEvent.stored id event).isSome = true ∨
        EverProvisioned history id := by
  simp [EverProvisioned]

theorem Invariant.filled (hinv : Invariant history s) {material : List Byte}
    (hpos : 1 ≤ material.length) (hmax : material.length ≤ maxPskLen)
    (hfresh : ∀ j, ¬ s.store.CarriesId j id)
    (hempty : (s.store.slots i).state = .empty)
    (hstore : s'.store = s.store.setSlot i ((s.store.slots i).fill id material))
    (hsource : s'.source = Function.update s.source i (some id)) :
    Invariant ((.provision id material, .provision (.ok ())) :: history)
      s' := by
  have hnew : s'.store.ProvisionedAs i id := by
    rw [SoftKeystore.ProvisionedAs, hstore, SoftKeystore.slots_setSlot_self]
    exact ⟨rfl, rfl⟩
  have hother : ∀ j, j ≠ i → s'.store.slots j = s.store.slots j := by
    intro j hj
    rw [hstore, SoftKeystore.slots_setSlot_of_ne _ hj]
  constructor
  case blank =>
    intro j hstate
    have hj : j ≠ i := by
      rintro rfl
      exact hstate hnew.1
    rw [hother j hj] at hstate ⊢
    exact hinv.blank j hstate
  case len_pos =>
    intro j id' h
    rcases provisionedAs_of_filled hfresh hstore h with
      ⟨-, -, hslot⟩ | ⟨-, -, hbefore, hslot⟩
    · rw [hslot]
      exact hpos
    · rw [hslot]
      exact hinv.len_pos j id' hbefore
  case distinct =>
    intro j j' id' h h'
    rcases provisionedAs_of_filled hfresh hstore h with
      ⟨rfl, rfl, -⟩ | ⟨-, hne, hbefore, -⟩
    · rcases provisionedAs_of_filled hfresh hstore h' with
        ⟨rfl, -, -⟩ | ⟨-, hne', -⟩
      · rfl
      · exact (hne' rfl).elim
    · rcases provisionedAs_of_filled hfresh hstore h' with
        ⟨-, hid, -⟩ | ⟨-, -, hbefore', -⟩
      · exact (hne hid).elim
      · exact hinv.distinct j j' id' hbefore hbefore'
  case stored =>
    intro j id' h
    rcases provisionedAs_of_filled hfresh hstore h with
      ⟨-, rfl, hslot⟩ | ⟨-, hne, hbefore, hslot⟩
    · rw [hslot, PskSlot.psk_fill _ _ hmax, lastProvisioned_cons_self]
    · rw [hslot, lastProvisioned_cons_of_none]
      · exact hinv.stored j id' hbefore
      · exact if_neg (Ne.symm hne)
  case source_eq =>
    intro j id' h
    rcases provisionedAs_of_filled hfresh hstore h with
      ⟨rfl, rfl, -⟩ | ⟨hj, -, hbefore, -⟩
    · rw [hsource, Function.update_self]
    · rw [hsource, Function.update_of_ne hj]
      exact hinv.source_eq j id' hbefore
  case zero_kept =>
    rw [everProvisioned_cons_iff]
    rintro (hnow | hbefore)
    · refine ⟨i, ?_⟩
      obtain rfl : id = PskId.zero := by
        by_contra hne
        simp [KeystoreEvent.stored, hne] at hnow
      exact hnew.carriesId
    · obtain ⟨j, hcarries⟩ := hinv.zero_kept hbefore
      have hj : j ≠ i := by
        rintro rfl
        exact hcarries.1 hempty
      refine ⟨j, ?_⟩
      rwa [SoftKeystore.CarriesId, hother j hj]

theorem Invariant.kept (hinv : Invariant history s)
    (hevent : ∀ id, KeystoreEvent.stored id event = none)
    (hslots : ∀ i, s'.store.slots i = s.store.slots i ∨
      s'.store.slots i = PskSlot.wiped) (hsource : s'.source = s.source) :
    Invariant (event :: history) s' := by
  constructor
  case blank =>
    intro i hstate
    rcases hslots i with hsame | hwiped
    · rw [hsame] at hstate ⊢
      exact hinv.blank i hstate
    · rw [hwiped]
      exact ⟨rfl, rfl, rfl⟩
  case len_pos =>
    intro i id h
    obtain ⟨hbefore, hslot⟩ := provisionedAs_of_kept hslots h
    rw [hslot]
    exact hinv.len_pos i id hbefore
  case distinct =>
    intro i j id hi hj
    exact hinv.distinct i j id (provisionedAs_of_kept hslots hi).1
      (provisionedAs_of_kept hslots hj).1
  case stored =>
    intro i id h
    obtain ⟨hbefore, hslot⟩ := provisionedAs_of_kept hslots h
    rw [hslot, lastProvisioned_cons_of_none (hevent id)]
    exact hinv.stored i id hbefore
  case source_eq =>
    intro i id h
    rw [hsource]
    exact hinv.source_eq i id (provisionedAs_of_kept hslots h).1
  case zero_kept =>
    rw [everProvisioned_cons_iff, hevent]
    rintro (hnow | hbefore)
    · contradiction
    · -- A slot that carries `ZERO` carries it also after it is wiped.
      obtain ⟨i, hcarries⟩ := hinv.zero_kept hbefore
      refine ⟨i, ?_⟩
      rcases hslots i with hsame | hwiped
      · rwa [SoftKeystore.CarriesId, hsame]
      · rw [SoftKeystore.CarriesId, hwiped]
        exact ⟨by decide, rfl⟩

/-- The keystores reached by calls, with the history of the calls. -/
abbrev Reached := Run step new

theorem invariant_of_reached (hrun : Reached history s) :
    Invariant history s := by
  apply hrun.history_invariant (I := Invariant) invariant_new
  intro history s c r s' _ hinv hstep
  generalize hevent : (c, r) = event
  have heffect := effect_of_step hstep
  rw [hevent] at heffect
  cases heffect with
  | filled id material i hpos hmax hfresh hempty hstore hsource =>
    exact hinv.filled hpos hmax hfresh hempty hstore hsource
  | kept event hnone hslots hsource => exact hinv.kept hnone hslots hsource

def sampleId : PskId := Buf.ofList 16 [1]

def afterCalls (calls : List KeystoreCall) :
    List KeystoreEvent × TrackedKeystore :=
  replay call new calls

theorem reached_afterCalls (calls : List KeystoreCall) :
    Reached (afterCalls calls).1 (afterCalls calls).2 :=
  run_replay calls

/-! ## One-way states and extraction -/

theorem state_of_effect (h : s.Effect s' event) (i : PskIdx) :
    ((s.store.slots i).state ≠ .empty → (s'.store.slots i).state ≠ .empty) ∧
      ((s.store.slots i).state = .wiped →
        (s'.store.slots i).state = .wiped) := by
  cases h with
  | filled id material j hpos hmax hfresh hempty hstore hsource =>
    by_cases hij : i = j
    · subst hij
      rw [hempty]
      exact ⟨fun hne => (hne rfl).elim, fun hwiped => by contradiction⟩
    · rw [hstore, SoftKeystore.slots_setSlot_of_ne _ hij]
      exact ⟨fun h => h, fun h => h⟩
  | kept event hnone hslots hsource =>
    rcases hslots i with hsame | hwiped
    · rw [hsame]
      exact ⟨fun h => h, fun h => h⟩
    · rw [hwiped]
      exact ⟨fun _ => by decide, fun _ => rfl⟩

theorem state_of_run {later : List KeystoreEvent}
    (hrun : Run step s later s') (i : PskIdx) :
    ((s.store.slots i).state ≠ .empty → (s'.store.slots i).state ≠ .empty) ∧
      ((s.store.slots i).state = .wiped →
        (s'.store.slots i).state = .wiped) := by
  induction hrun with
  | start => exact ⟨fun h => h, fun h => h⟩
  | next _ hstep ih =>
    have hone := state_of_effect (effect_of_step hstep) i
    exact ⟨fun h => hone.1 (ih.1 h), fun h => hone.2 (ih.2 h)⟩

theorem Invariant.findProvisioned_eq_some (hinv : Invariant history s)
    (h : s.store.ProvisionedAs i id) : s.store.findProvisioned id = some i := by
  rw [SoftKeystore.findProvisioned_eq_some_iff]
  refine ⟨h, ?_⟩
  intro j hj hprov
  exact hj.ne (hinv.distinct j i id hprov h)

/-- Extraction answers for exactly the provisioned identifiers, from the
material that was last provisioned. -/
theorem Invariant.pskHkdfExtract_cases (hinv : Invariant history s)
    (sha256 : List Byte → Buf 32) (id : PskId) (salt : List Byte) :
    (s.store.pskExists id = false ∧
      s.store.pskHkdfExtract sha256 id salt = .error .pskNotFound) ∨
    (∃ material, s.store.pskExists id = true ∧
      s.store.pskHkdfExtract sha256 id salt =
        .ok (hkdfExtract sha256 salt material) ∧
      lastProvisioned history id = some material) := by
  unfold SoftKeystore.pskHkdfExtract
  by_cases hprov : ∃ i, s.store.ProvisionedAs i id
  · obtain ⟨i, hi⟩ := hprov
    have hlen : (s.store.slots i).materialLen ≠ 0 := (hinv.len_pos i id hi).ne'
    refine .inr ⟨(s.store.slots i).psk,
      (s.store.pskExists_iff id).mpr ⟨i, hi⟩, ?_, hinv.stored i id hi⟩
    rw [hinv.findProvisioned_eq_some hi]
    exact if_neg hlen
  · have hnone : s.store.findProvisioned id = none :=
      (s.store.findProvisioned_eq_none_iff id).mpr (not_exists.mp hprov)
    refine .inl ⟨?_, ?_⟩
    · rw [Bool.eq_false_iff, ne_eq, SoftKeystore.pskExists_iff]
      exact hprov
    · rw [hnone]

/-- The documented part of the lifecycle that the code keeps, after any calls
`earlier` and across any further calls `later`. -/
theorem keystore_lifecycle {earlier later : List KeystoreEvent}
    {s s' : TrackedKeystore} (hrun : Reached earlier s)
    (hlater : Run step s later s') (sha256 : List Byte → Buf 32) :
    (∀ i, ((s.store.slots i).state ≠ .empty →
        (s'.store.slots i).state ≠ .empty) ∧
      ((s.store.slots i).state = .wiped →
        (s'.store.slots i).state = .wiped)) ∧
    (∀ i j, (s.store.slots i).state = .provisioned →
      (s.store.slots j).state = .provisioned →
      (s.store.slots i).id = (s.store.slots j).id → i = j) ∧
    (∀ i, (s.store.slots i).state ≠ .provisioned →
      (s.store.slots i).material = Buf.zero) ∧
    (∀ id salt, s.store.pskExists id = true ↔
      ∃ prk, s.store.pskHkdfExtract sha256 id salt = .ok prk) ∧
    (∀ id salt prk, s.store.pskHkdfExtract sha256 id salt = .ok prk →
      ∃ material, lastProvisioned earlier id = some material ∧
        prk.toList = (sha256Hash sha256).hmac salt material) := by
  have hinv := invariant_of_reached hrun
  refine ⟨state_of_run hlater, ?_, ?_, ?_, ?_⟩
  · intro i j hi hj hid
    exact hinv.distinct i j (s.store.slots j).id ⟨hi, hid⟩ ⟨hj, rfl⟩
  · intro i hstate
    exact (hinv.blank i hstate).2.1
  · intro id salt
    rcases hinv.pskHkdfExtract_cases sha256 id salt with
      ⟨hexists, hextract⟩ | ⟨material, hexists, hextract, -⟩
    · simp [hexists, hextract]
    · simp [hexists, hextract]
  · intro id salt prk hprk
    rcases hinv.pskHkdfExtract_cases sha256 id salt with
      ⟨-, hextract⟩ | ⟨material, -, hextract, hlast⟩
    · rw [hextract] at hprk
      contradiction
    · rw [hextract] at hprk
      cases hprk
      exact ⟨material, hlast, toList_hkdfExtract sha256 salt material⟩

theorem keystore_lifecycle_sampleId :
    ∃ history s, Reached history s ∧ s.store.pskExists sampleId = true ∧
      (s.store.pskExists sampleId = true ↔
        ∃ prk, s.store.pskHkdfExtract (fun _ => Buf.zero) sampleId [] =
          .ok prk) :=
  ⟨_, _, reached_afterCalls [.provision sampleId [7]], by decide,
    (keystore_lifecycle (reached_afterCalls [.provision sampleId [7]]) .start
      (fun _ => Buf.zero)).2.2.2.1 sampleId []⟩

/-! ## Destruction -/

/-- The slot holds material that was provisioned under the identifier: it was
filled under it and has not been erased since. -/
def Holds (s : TrackedKeystore) (i : PskIdx) (id : PskId) : Prop :=
  s.source i = some id ∧
    ¬ ((s.store.slots i).material = Buf.zero ∧
      (s.store.slots i).materialLen = 0)

theorem Invariant.holds_iff (hinv : Invariant history s) (i : PskIdx)
    (id : PskId) : s.Holds i id ↔ s.store.ProvisionedAs i id := by
  constructor
  · rintro ⟨hsource, herased⟩
    have hstate : (s.store.slots i).state = .provisioned := by
      by_contra hstate
      exact herased (hinv.blank i hstate).2
    have hid : s.source i = some (s.store.slots i).id :=
      hinv.source_eq i _ ⟨hstate, rfl⟩
    rw [hsource] at hid
    exact ⟨hstate, (Option.some.inj hid).symm⟩
  · intro hprov
    refine ⟨hinv.source_eq i id hprov, ?_⟩
    rintro ⟨-, hlen⟩
    exact (hinv.len_pos i id hprov).ne' hlen

/-- The identifier is `ZERO`, and a wiped slot, which carries it too, stands in
front of the slot that is provisioned under it. -/
def Shadowed (s : TrackedKeystore) (id : PskId) : Prop :=
  id = PskId.zero ∧ ∃ i j, i < j ∧ (s.store.slots i).state = .wiped ∧
    s.store.ProvisionedAs j id

theorem Invariant.carriesId_zero_of_wiped (hinv : Invariant history s)
    (hwiped : (s.store.slots i).state = .wiped) :
    s.store.CarriesId i PskId.zero := by
  have hstate : (s.store.slots i).state ≠ .provisioned := by
    rw [hwiped]
    decide
  refine ⟨?_, (hinv.blank i hstate).1⟩
  rw [hwiped]
  decide

/-- A slot that carries an identifier is provisioned under it, or is wiped and
the identifier is `ZERO`. -/
theorem Invariant.cases_of_carriesId (hinv : Invariant history s)
    (h : s.store.CarriesId i id) :
    s.store.ProvisionedAs i id ∨
      ((s.store.slots i).state = .wiped ∧ id = PskId.zero) := by
  cases hstate : (s.store.slots i).state with
  | empty => exact (h.1 hstate).elim
  | provisioned => exact .inl ⟨hstate, h.2⟩
  | wiped =>
    have hid := (hinv.carriesId_zero_of_wiped hstate).2
    exact .inr ⟨rfl, h.2.symm.trans hid⟩

/-- Some slot is still provisioned under the identifier after its destruction
exactly when the identifier was shadowed. -/
theorem Invariant.provisionedAs_after_destroy_iff (hinv : Invariant history s)
    (id : PskId) :
    (∃ i, (s.store.pskDestroy id).2.ProvisionedAs i id) ↔ s.Shadowed id := by
  rcases s.store.pskDestroy_cases id with
    ⟨heq, hnone⟩ | ⟨i, heq, hcarries, hfirst⟩
  · rw [heq]
    apply iff_of_false
    · rintro ⟨i, hi⟩
      exact hnone i hi.carriesId
    · rintro ⟨-, i, j, -, -, hj⟩
      exact hnone j hj.carriesId
  · rw [heq]
    have hafter : ∀ j, (s.store.setSlot i PskSlot.wiped).ProvisionedAs j id ↔
        j ≠ i ∧ s.store.ProvisionedAs j id := by
      intro j
      by_cases hj : j = i
      · subst hj
        simp [SoftKeystore.ProvisionedAs, PskSlot.wiped]
      · simp [SoftKeystore.ProvisionedAs,
          SoftKeystore.slots_setSlot_of_ne _ hj, hj]
    simp only [hafter]
    rcases hinv.cases_of_carriesId hcarries with hprov | ⟨hwiped, hzero⟩
    · -- The slot found is the one that holds the key.
      apply iff_of_false
      · rintro ⟨j, hj, hprov'⟩
        exact hj (hinv.distinct j i id hprov' hprov)
      · rintro ⟨rfl, a, b, hab, hwiped, hb⟩
        obtain rfl := hinv.distinct b i _ hb hprov
        exact hfirst a hab (hinv.carriesId_zero_of_wiped hwiped)
    · -- The slot found was wiped already.
      constructor
      · rintro ⟨j, hj, hprov⟩
        have hij : i < j := by
          rcases lt_trichotomy i j with h | h | h
          · exact h
          · exact (hj h.symm).elim
          · exact (hfirst j h hprov.carriesId).elim
        exact ⟨hzero, i, j, hij, hwiped, hprov⟩
      · rintro ⟨-, a, b, hab, -, hb⟩
        refine ⟨b, ?_, hb⟩
        rintro rfl
        rw [hb.1] at hwiped
        contradiction

/-- Destruction removes the key and its material exactly when the identifier is
not shadowed by a wiped slot. -/
theorem pskDestroy_erases_iff {history : List KeystoreEvent}
    {s s' : TrackedKeystore} (hrun : Reached history s) (id : PskId)
    (hstep : s.step (.pskDestroy id) = some (.pskDestroy (.ok ()), s')) :
    (s'.store.pskExists id = false ∧ ∀ i, ¬ s'.Holds i id) ↔
      ¬ s.Shadowed id := by
  have hinv := invariant_of_reached hrun
  have hinv' := invariant_of_reached (Run.next hrun hstep)
  have hstore : s'.store = (s.store.pskDestroy id).2 := by
    obtain ⟨-, rfl⟩ := Prod.mk.inj (Option.some.inj hstep)
    rfl
  have hholds : (∀ i, ¬ s'.Holds i id) ↔
      ¬ ∃ i, s'.store.ProvisionedAs i id := by
    simp only [hinv'.holds_iff, not_exists]
  have hexists : s'.store.pskExists id = false ↔
      ¬ ∃ i, s'.store.ProvisionedAs i id := by
    rw [Bool.eq_false_iff, ne_eq, SoftKeystore.pskExists_iff]
  rw [hholds, hexists, and_self, hstore, hinv.provisionedAs_after_destroy_iff]

theorem pskDestroy_erases_iff_sampleId :
    ∃ history s s', Reached history s ∧
      s.step (.pskDestroy sampleId) = some (.pskDestroy (.ok ()), s') ∧
      ((s'.store.pskExists sampleId = false ∧ ∀ i, ¬ s'.Holds i sampleId) ↔
        ¬ s.Shadowed sampleId) :=
  ⟨_, _, _, reached_afterCalls [.provision sampleId [7]], rfl,
    pskDestroy_erases_iff (reached_afterCalls [.provision sampleId [7]])
      sampleId rfl⟩

/-- Two keys are stored, the second under `ZERO`, and the first is destroyed.
Destroying the second wipes the first slot again. -/
theorem pskDestroy_zero_keeps_key :
    ∃ history s s', Reached history s ∧
      s.step (.pskDestroy PskId.zero) = some (.pskDestroy (.ok ()), s') ∧
      s'.store.pskExists PskId.zero = true ∧
      ∃ i, s'.Holds i PskId.zero ∧ (s'.store.slots i).psk = [9] :=
  ⟨_, _, _, reached_afterCalls [.pskDestroy sampleId,
      .provision PskId.zero [9], .provision sampleId [7]], rfl,
    by decide, ⟨1, by decide⟩, ⟨by decide, by decide⟩, by decide⟩

/-! ## Reuse of identifiers -/

/-- The lookup of `provision` misjudges the identifier: it was provisioned
before but no slot shows it any more, or it is `ZERO`, which was never
provisioned, and a wiped slot shows it. -/
def Misjudged (history : List KeystoreEvent) (s : TrackedKeystore)
    (id : PskId) : Prop :=
  (id ≠ PskId.zero ∧ EverProvisioned history id ∧
      ∀ i, ¬ s.store.ProvisionedAs i id) ∨
    (id = PskId.zero ∧ ¬ EverProvisioned history id ∧
      ∃ i, (s.store.slots i).state = .wiped)

theorem Invariant.everProvisioned_of_provisionedAs (hinv : Invariant history s)
    (h : s.store.ProvisionedAs i id) : EverProvisioned history id := by
  obtain ⟨event, hmem, hstored⟩ :=
    List.exists_of_findSome?_eq_some (hinv.stored i id h)
  refine ⟨event, hmem, ?_⟩
  rw [hstored]
  rfl

/-- Carrying the identifier and having been provisioned coincide unless the
lookup misjudges it. -/
theorem Invariant.carried_iff_everProvisioned_iff (hinv : Invariant history s)
    (id : PskId) :
    ((∀ i, ¬ s.store.CarriesId i id) ↔ ¬ EverProvisioned history id) ↔
      ¬ s.Misjudged history id := by
  by_cases hcarried : ∃ i, s.store.CarriesId i id
  · obtain ⟨i, hi⟩ := hcarried
    have hleft : ¬ ∀ i, ¬ s.store.CarriesId i id := fun h => h i hi
    rcases hinv.cases_of_carriesId hi with hprov | ⟨hwiped, rfl⟩
    · have hever := hinv.everProvisioned_of_provisionedAs hprov
      refine iff_of_true (iff_of_false hleft (not_not.mpr hever)) ?_
      rintro (⟨-, -, hnone⟩ | ⟨-, hnever, -⟩)
      · exact hnone i hprov
      · exact hnever hever
    · constructor
      · rintro hiff (⟨hne, -⟩ | ⟨-, hnever, -⟩)
        · exact hne rfl
        · exact hleft (hiff.mpr hnever)
      · intro hjudged
        refine iff_of_false hleft ?_
        intro hnever
        exact hjudged (.inr ⟨rfl, hnever, i, hwiped⟩)
  · have hnone := not_exists.mp hcarried
    constructor
    · rintro hiff (⟨-, hever, -⟩ | ⟨rfl, -, i, hwiped⟩)
      · exact hiff.mp hnone hever
      · exact hnone i (hinv.carriesId_zero_of_wiped hwiped)
    · intro hjudged
      refine iff_of_true hnone ?_
      intro hever
      by_cases hzero : id = PskId.zero
      · subst hzero
        obtain ⟨i, hi⟩ := hinv.zero_kept hever
        exact hnone i hi
      · refine hjudged (.inl ⟨hzero, hever, ?_⟩)
        intro i hprov
        exact hnone i hprov.carriesId

/-- A call of `provision` at the end of a run does what the lifecycle asks for
exactly when it would fail for another reason or the lookup does not misjudge
the identifier. -/
theorem provision_respects_history_iff {history : List KeystoreEvent}
    {s : TrackedKeystore} (hrun : Reached history s) (id : PskId)
    (material : List Byte) :
    ((s.store.provision id material).1 = .ok () ↔
      1 ≤ material.length ∧ material.length ≤ 64 ∧
        (∃ i, (s.store.slots i).state = .empty) ∧
        ¬ EverProvisioned history id) ↔
      (¬ (1 ≤ material.length ∧ material.length ≤ 64) ∨
        (∀ i, (s.store.slots i).state ≠ .empty) ∨
        ¬ s.Misjudged history id) := by
  have hcarried :=
    (invariant_of_reached hrun).carried_iff_everProvisioned_iff id
  have hok : (s.store.provision id material).1 = .ok () ↔
      1 ≤ material.length ∧ material.length ≤ 64 ∧
        (∃ i, (s.store.slots i).state = .empty) ∧
        ∀ i, ¬ s.store.CarriesId i id :=
    s.store.provision_eq_ok_iff id material
  have hfull : (∀ i, (s.store.slots i).state ≠ .empty) ↔
      ¬ ∃ i, (s.store.slots i).state = .empty := not_exists.symm
  rw [hok, hfull, ← hcarried]
  by_cases hlen : 1 ≤ material.length ∧ material.length ≤ 64
  · by_cases hempty : ∃ i, (s.store.slots i).state = .empty
    · simp only [hlen, hempty, true_and, not_true, false_or]
    · simp only [hempty, false_and, and_false, not_false_iff, true_or, or_true]
  · simp only [← and_assoc, hlen, false_and, not_false_iff, true_or]

theorem provision_respects_history_iff_sampleId :
    ∃ history s, Reached history s ∧ EverProvisioned history sampleId ∧
      s.store.pskExists sampleId = false ∧
      (((s.store.provision sampleId [7]).1 = .ok () ↔
        1 ≤ [(7 : Byte)].length ∧ [(7 : Byte)].length ≤ 64 ∧
          (∃ i, (s.store.slots i).state = .empty) ∧
          ¬ EverProvisioned history sampleId) ↔
        (¬ (1 ≤ [(7 : Byte)].length ∧ [(7 : Byte)].length ≤ 64) ∨
          (∀ i, (s.store.slots i).state ≠ .empty) ∨
          ¬ s.Misjudged history sampleId)) :=
  ⟨_, _, reached_afterCalls [.pskDestroy sampleId, .provision sampleId [7]],
    by decide, by decide, provision_respects_history_iff
      (reached_afterCalls [.pskDestroy sampleId, .provision sampleId [7]])
      sampleId [7]⟩

/-- A destroyed identifier is provisioned again, and after that destruction
`ZERO` is refused although it was never provisioned. -/
theorem provision_forgets_destroyed_id :
    ∃ history s, Reached history s ∧ EverProvisioned history sampleId ∧
      (s.store.provision sampleId [7]).1 = .ok () ∧
      ¬ EverProvisioned history PskId.zero ∧
      (∃ i, (s.store.slots i).state = .empty) ∧
      (s.store.provision PskId.zero [7]).1 = .error .duplicate :=
  ⟨_, _, reached_afterCalls [.pskDestroy sampleId, .provision sampleId [7]],
    by decide, rfl, by decide, ⟨⟨1, by decide⟩, rfl⟩, rfl⟩

end TrackedKeystore

end IsoLightK0
