import IsoLightK0.Registry.Invariant

/-!
# Authentication against the issue log

`authenticate` compares a presented capability with the current slot and keeps
no log.  Over a whole run it nevertheless decides a property of the history:
the token was issued for that slot by an attach, and no detach of the slot has
succeeded since.

The link is `Books`: at every moment the live grants of the history are exactly
the attached slots.  Distinct tokens are needed only to conclude that a
capability once detached is refused for good.
-/

namespace IsoLightK0

open Bytes Runs

abbrev RegistryEvent := RegistryCall × RegistryResult

/-- The event is an attach that returned `issued`. -/
def Issues (event : RegistryEvent) (issued : HsmCapability) : Prop :=
  ∃ busKind initBlob attestPayload rights,
    event = (.attach busKind initBlob attestPayload rights,
      .attached (.ok issued))

/-- The event is a successful detach of the slot that `issued` names. -/
def Revokes (event : RegistryEvent) (issued : HsmCapability) : Prop :=
  ∃ cap required,
    event = (.detach cap required, .detached (.ok ())) ∧
      cap.slot = issued.slot

/-- The tokens that the attaches of a history returned, latest first. -/
def issuedTokens (history : List RegistryEvent) : List (BitVec 64) :=
  history.filterMap fun
    | (_, .attached (.ok cap)) => some cap.token
    | _ => none

/-- The bookkeeping that authentication reads is the same in both
registries. -/
def SameBooks (r r' : HsmRegistry) : Prop :=
  ∀ j, (r'.slots j).state = (r.slots j).state ∧
    (r'.slots j).token = (r.slots j).token ∧
    (r'.slots j).rights = (r.slots j).rights

variable {K K' : Kernel} {C : Crates} {destroy : BusInstance.Destructor}
  {event : RegistryEvent} {history : List RegistryEvent}

theorem Kernel.BusesOnly.sameBooks (h : K.BusesOnly K') :
    SameBooks K.registry K'.registry := by
  intro j
  rw [h.slots j]
  exact ⟨rfl, rfl, rfl⟩

/-- What one completed operation does to the log and to the books. -/
inductive BookStep (r r' : HsmRegistry) (event : RegistryEvent) : Prop
  | issued (i : SlotIdx) (token : BitVec 64) (rights : HsmRights)
      (hempty : (r.slots i).state = .empty) (htoken : token ≠ 0)
      (hissue : ∀ cap, Issues event cap ↔
        cap = HsmCapability.issued token i rights)
      (hkeep : ∀ cap, ¬ Revokes event cap)
      (hslot : (r'.slots i).state = .attached ∧
        (r'.slots i).token = token ∧ (r'.slots i).rights = rights)
      (hother : ∀ j, j ≠ i → r'.slots j = r.slots j)
  | revoked (i : SlotIdx) (hissue : ∀ cap, ¬ Issues event cap)
      (hrevoke : ∀ cap, Revokes event cap ↔ cap.slot.toNat = i.val)
      (hslot : (r'.slots i).state = .empty)
      (hother : ∀ j, j ≠ i → r'.slots j = r.slots j)
  | unchanged (hissue : ∀ cap, ¬ Issues event cap)
      (hkeep : ∀ cap, ¬ Revokes event cap) (hbooks : SameBooks r r')

theorem SameBooks.refl (r : HsmRegistry) : SameBooks r r :=
  fun _ => ⟨rfl, rfl, rfl⟩

theorem bookStep_attach {busKind : BusKind} {initBlob : List Byte}
    {attestPayload : Option (List Byte)} {rights : HsmRights}
    {result : Except HsmCapError HsmCapability}
    (h : K.attach C destroy busKind initBlob attestPayload rights =
      some (result, K')) :
    BookStep K.registry K'.registry
      (.attach busKind initBlob attestPayload rights, .attached result) := by
  rcases Kernel.attach_cases h with
    ⟨e, drbg, -, rfl, rfl⟩ |
    ⟨attestOk, i, token, drbg₁, bus, drbg₂, -, hempty, htoken, -, rfl, rfl⟩
  · refine .unchanged ?_ ?_ (.refl _)
    · rintro cap ⟨k, b, p, ρ, heq⟩
      cases heq
    · rintro cap ⟨c, ρ, heq, -⟩
      cases heq
  · refine .issued i token rights
      ((HsmRegistry.firstEmpty_eq_some_iff _ _).mp hempty).1
      (genTokenU64_ne_zero htoken) ?_ ?_ ?_ ?_
    · intro cap
      constructor
      · rintro ⟨k, b, p, ρ, heq⟩
        cases heq
        rfl
      · rintro rfl
        exact ⟨busKind, initBlob, attestPayload, rights, rfl⟩
    · rintro cap ⟨c, ρ, heq, -⟩
      cases heq
    · rw [HsmRegistry.set_slots_self]
      cases attestOk with
      | none => exact ⟨rfl, rfl, rfl⟩
      | some pkPrefix => exact ⟨rfl, rfl, rfl⟩
    · intro j hj
      exact HsmRegistry.set_slots_of_ne _ _ hj

theorem bookStep_detach {cap : HsmCapability} {required : HsmRights}
    {result : Except HsmCapError Unit}
    (h : K.detach destroy cap required = some (result, K')) :
    BookStep K.registry K'.registry
      (.detach cap required, .detached result) := by
  have hissue : ∀ issued,
      ¬ Issues (.detach cap required, .detached result) issued := by
    rintro issued ⟨k, b, p, ρ, heq⟩
    cases heq
  rcases Kernel.detach_cases h with
    ⟨-, rfl, e, rfl⟩ | ⟨i, -, hslot, rfl, rfl⟩
  · refine .unchanged hissue ?_ (.refl _)
    rintro issued ⟨c, ρ, heq, -⟩
    cases heq
  · refine .revoked i hissue ?_ ?_ ?_
    · intro issued
      rw [← hslot]
      constructor
      · rintro ⟨c, ρ, heq, hc⟩
        cases heq
        rw [hc]
      · intro hc
        exact ⟨cap, required, rfl, BitVec.eq_of_toNat_eq hc.symm⟩
    · rw [HsmRegistry.set_slots_self]
      rfl
    · intro j hj
      exact HsmRegistry.set_slots_of_ne _ _ hj

theorem bookStep_of_busesOnly (h : K.BusesOnly K')
    (hattach : ∀ k b p ρ, event.1 ≠ .attach k b p ρ)
    (hdetach : ∀ c ρ, event.1 ≠ .detach c ρ) :
    BookStep K.registry K'.registry event := by
  refine .unchanged ?_ ?_ h.sameBooks
  · rintro cap ⟨k, b, p, ρ, rfl⟩
    exact hattach k b p ρ rfl
  · rintro cap ⟨c, ρ, rfl, -⟩
    exact hdetach c ρ rfl

theorem registryStep_bookStep {call : RegistryCall} {result : RegistryResult}
    (hstep : registryStep C destroy K call = some (result, K')) :
    BookStep K.registry K'.registry (call, result) := by
  cases call with
  | attach busKind initBlob attestPayload rights =>
    obtain ⟨⟨r, K₁⟩, hattach, heq⟩ := Option.map_eq_some_iff.mp hstep
    cases heq
    exact bookStep_attach hattach
  | detach cap required =>
    obtain ⟨⟨r, K₁⟩, hdetach, heq⟩ := Option.map_eq_some_iff.mp hstep
    cases heq
    exact bookStep_detach hdetach
  | write slot data | read slot outLen | relay srcSlot dstSlot byteLen
  | enumerate outLen =>
    have hbuses : K.BusesOnly K' := registryStep_busesOnly hstep trivial
    exact bookStep_of_busesOnly hbuses (by simp) (by simp)

/-! ## The books agree with the log -/

structure Books (history : List RegistryEvent) (r : HsmRegistry) : Prop where
  live : ∀ cap, Live Issues Revokes history cap ↔
    ∃ i, (r.slots i).state = .attached ∧
      cap = HsmCapability.issued (r.slots i).token i (r.slots i).rights
  token : ∀ i, (r.slots i).state = .attached → (r.slots i).token ≠ 0

theorem HsmCapability.issued_slot_toNat (token : BitVec 64) (i : SlotIdx)
    (rights : HsmRights) : (issued token i rights).slot.toNat = i.val := by
  simp only [issued, BitVec.toNat_ofNat]
  omega

theorem books_new : Books [] HsmRegistry.new where
  live := by
    intro cap
    constructor
    · intro h
      exact (not_live_nil cap h).elim
    · rintro ⟨i, hstate, -⟩
      cases hstate
  token := by
    intro i hstate
    cases hstate

theorem Books.step {r r' : HsmRegistry} (h : Books history r)
    (hstep : BookStep r r' event) : Books (event :: history) r' := by
  cases hstep with
  | issued i token rights hempty htoken hissue hkeep hslot hother =>
    obtain ⟨hstate, htok, hrights⟩ := hslot
    refine ⟨?_, ?_⟩
    · intro cap
      rw [live_cons_iff, hissue, h.live]
      constructor
      · rintro (rfl | ⟨⟨j, hj, rfl⟩, -⟩)
        · exact ⟨i, hstate, by rw [htok, hrights]⟩
        · have hne : j ≠ i := by
            rintro rfl
            rw [hempty] at hj
            cases hj
          exact ⟨j, by rwa [hother j hne], by rw [hother j hne]⟩
      · rintro ⟨j, hj, rfl⟩
        by_cases hji : j = i
        · subst hji
          exact .inl (by rw [htok, hrights])
        · rw [hother j hji] at hj ⊢
          exact .inr ⟨⟨j, hj, rfl⟩, hkeep _⟩
    · intro j hj
      by_cases hji : j = i
      · subst hji
        rwa [htok]
      · rw [hother j hji] at hj ⊢
        exact h.token j hj
  | revoked i hissue hrevoke hslot hother =>
    have hne : ∀ j, (r'.slots j).state = .attached → j ≠ i := by
      rintro j hj rfl
      rw [hslot] at hj
      cases hj
    refine ⟨?_, ?_⟩
    · intro cap
      rw [live_cons_iff, h.live, hrevoke]
      constructor
      · rintro (hnow | ⟨⟨j, hj, rfl⟩, hkept⟩)
        · exact (hissue cap hnow).elim
        · rw [HsmCapability.issued_slot_toNat] at hkept
          have hji : j ≠ i := fun heq => hkept (congrArg Fin.val heq)
          exact ⟨j, by rwa [hother j hji], by rw [hother j hji]⟩
      · rintro ⟨j, hj, rfl⟩
        have hji := hne j hj
        rw [hother j hji] at hj ⊢
        refine .inr ⟨⟨j, hj, rfl⟩, ?_⟩
        rw [HsmCapability.issued_slot_toNat]
        exact fun heq => hji (Fin.ext heq)
    · intro j hj
      have hji := hne j hj
      rw [hother j hji] at hj ⊢
      exact h.token j hj
  | unchanged hissue hkeep hbooks =>
    refine ⟨?_, ?_⟩
    · intro cap
      rw [live_cons_iff, h.live]
      constructor
      · rintro (hnow | ⟨⟨j, hj, rfl⟩, -⟩)
        · exact (hissue cap hnow).elim
        · obtain ⟨hstate, htok, hrights⟩ := hbooks j
          exact ⟨j, by rwa [hstate], by rw [htok, hrights]⟩
      · rintro ⟨j, hj, rfl⟩
        obtain ⟨hstate, htok, hrights⟩ := hbooks j
        rw [hstate] at hj
        rw [htok, hrights]
        exact .inr ⟨⟨j, hj, rfl⟩, hkeep _⟩
    · intro j hj
      obtain ⟨hstate, htok, -⟩ := hbooks j
      rw [hstate] at hj
      rw [htok]
      exact h.token j hj

theorem run_books {K₀ : Kernel} (hinit : K₀.registry = HsmRegistry.new)
    (hrun : Run (registryStep C destroy) K₀ history K) :
    Books history K.registry := by
  refine hrun.history_invariant
    (I := fun history K => Books history K.registry) ?_ ?_
  · rw [hinit]
    exact books_new
  · intro history K call result K' _ hbooks hstep
    exact hbooks.step (registryStep_bookStep hstep)

/-- Authentication decides whether the log holds a live grant for the
presented token and slot. -/
theorem Books.authenticate_iff {r : HsmRegistry} (h : Books history r)
    (cap : HsmCapability) (required : HsmRights) :
    r.authenticate cap required = true ↔
      cap.rights.Contains required ∧
        ∃ issued, Live Issues Revokes history issued ∧
          issued.slot = cap.slot ∧ issued.token = cap.token ∧
          issued.rights.Contains required := by
  rw [HsmRegistry.authenticate_iff]
  constructor
  · rintro ⟨i, hslot, -, hstate, htok, hstored, hcap⟩
    refine ⟨hcap, _, (h.live _).mpr ⟨i, hstate, rfl⟩, ?_, htok.symm, hstored⟩
    apply BitVec.eq_of_toNat_eq
    rw [HsmCapability.issued_slot_toNat, hslot]
  · rintro ⟨hcap, issued, hlive, hslot, htok, hrights⟩
    obtain ⟨i, hstate, rfl⟩ := (h.live issued).mp hlive
    have hidx : cap.slot.toNat = i.val := by
      rw [← hslot, HsmCapability.issued_slot_toNat]
    have htoken : cap.token = (r.slots i).token := htok.symm
    refine ⟨i, hidx, ?_, hstate, htoken, hrights, hcap⟩
    rw [htoken]
    exact h.token i hstate

/-! ## Runs -/

theorem mem_issuedTokens {issued : HsmCapability} (hmem : event ∈ history)
    (hissue : Issues event issued) : issued.token ∈ issuedTokens history := by
  obtain ⟨busKind, initBlob, attestPayload, rights, rfl⟩ := hissue
  exact List.mem_filterMap.mpr ⟨_, hmem, rfl⟩

/-- With distinct tokens, a detach withdraws its token from the slot for
good. -/
theorem not_live_of_detached {later earlier : List RegistryEvent}
    {cap : HsmCapability} {required : HsmRights}
    (hdistinct : (issuedTokens
      (later ++ (.detach cap required, .detached (.ok ())) ::
        earlier)).Nodup)
    (hold : ∃ event ∈ earlier, ∃ issued, Issues event issued ∧
      issued.token = cap.token)
    {issued : HsmCapability} (hslot : issued.slot = cap.slot)
    (htoken : issued.token = cap.token) :
    ¬ Live Issues Revokes
      (later ++ (.detach cap required, .detached (.ok ())) :: earlier)
      issued := by
  intro hlive
  obtain ⟨e, he, hnew⟩ := hlive.exists_issue_after
    ⟨cap, required, rfl, hslot.symm⟩
    (by
      rintro ⟨k, b, p, ρ, heq⟩
      cases heq)
  obtain ⟨e', he', issued', hold', htoken'⟩ := hold
  have hlater : cap.token ∈ issuedTokens later := by
    rw [← htoken]
    exact mem_issuedTokens he hnew
  have hearlier : cap.token ∈ issuedTokens earlier := by
    rw [← htoken']
    exact mem_issuedTokens he' hold'
  have hsplit : issuedTokens
      (later ++ (.detach cap required, .detached (.ok ())) :: earlier) =
        issuedTokens later ++ issuedTokens earlier := by
    simp [issuedTokens]
  rw [hsplit] at hdistinct
  exact (List.nodup_append.mp hdistinct).2.2 _ hlater _ hearlier rfl

/-- Over every registry run from the new registry, a capability is accepted
exactly when an attach issued its token for its slot with the required rights,
no detach of the slot has succeeded since, and it claims the rights itself.
When the drawn tokens are distinct, a detached capability is never accepted
again. -/
theorem authenticate_iff_live_issue (C : Crates)
    (destroy : BusInstance.Destructor) {K₀ K : Kernel}
    {history : List RegistryEvent}
    (hinit : K₀.registry = HsmRegistry.new)
    (hrun : Run (registryStep C destroy) K₀ history K) :
    (∀ cap required,
      K.registry.authenticate cap required = true ↔
        cap.rights.Contains required ∧
          ∃ issued, Live Issues Revokes history issued ∧
            issued.slot = cap.slot ∧ issued.token = cap.token ∧
            issued.rights.Contains required) ∧
      ((issuedTokens history).Nodup →
        ∀ later earlier detached withRights,
          history = later ++
              (.detach detached withRights, .detached (.ok ())) ::
                earlier →
            ∀ cap required, cap.slot = detached.slot →
              cap.token = detached.token →
              K.registry.authenticate cap required = false) := by
  have hbooks := run_books hinit hrun
  refine ⟨hbooks.authenticate_iff, ?_⟩
  rintro hdistinct later earlier detached withRights rfl cap required
    hslot htoken
  obtain ⟨K₁, K₂, hprefix, hstep⟩ := hrun.exists_step
  -- the detach itself was authenticated, so its token had been issued before
  have haccepted :
      K₁.registry.authenticate detached withRights = true := by
    obtain ⟨⟨r, K₃⟩, hdetach, heq⟩ := Option.map_eq_some_iff.mp hstep
    cases heq
    rcases Kernel.detach_cases hdetach with ⟨-, -, e, herr⟩ | ⟨i, hauth, -⟩
    · cases herr
    · exact hauth
  obtain ⟨-, issued, hlive, -, hissued, -⟩ :=
    ((run_books hinit hprefix).authenticate_iff _ _).mp haccepted
  obtain ⟨e, he, hissue⟩ := hlive.exists_issue
  rw [← Bool.not_eq_true, hbooks.authenticate_iff]
  rintro ⟨-, issued', hlive', hslot', htoken', -⟩
  exact not_live_of_detached hdistinct ⟨e, he, issued, hissue, hissued⟩
    (hslot'.trans hslot) (htoken'.trans htoken) hlive'

/-- After boot, attaching an echo bus and detaching it again is such a run:
the capability that attach returned is refused afterwards. -/
theorem authenticate_after_boot_detach :
    ∃ history K,
      Run (registryStep Crates.inert BusInstance.returning)
          (Kernel.boot [.generated fun _ => 1] Buf.zero Buf.zero 1 2)
          history K ∧ history.length = 2 ∧
        K.registry.authenticate
          (HsmCapability.issued 0x0101010101010101 0 0x1F) HsmRights.use =
            false := by
  have hattached : Run (registryStep Crates.inert BusInstance.returning)
      (Kernel.boot [.generated fun _ => 1] Buf.zero Buf.zero 1 2) _ _ :=
    Run.next (a := .attach .software [] none 0x1F) Run.start rfl
  have hrun := Run.next
    (a := .detach (HsmCapability.issued 0x0101010101010101 0 0x1F)
      HsmRights.revoke) hattached rfl
  refine ⟨_, _, hrun, rfl, ?_⟩
  exact (authenticate_iff_live_issue Crates.inert BusInstance.returning rfl
    hrun).2 (by decide) [] _ _ _ rfl _ _ rfl rfl

end IsoLightK0
