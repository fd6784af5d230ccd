import IsoLightK0.Mmu.Forest

/-!
# What the table operations do to the tree

Each operation is specified once, in both strengths: whatever it returns, the
tables still form a tree that contains the old one, and with enough free
frames and a page that is not mapped yet it does return.

`Ledger leaves n` fixes the mapped pages and promises room for `n` frames.
-/

namespace IsoLightK0

open Bytes Triples Worlds PageTableFlags

/-- The tables in memory form a tree below `root`. -/
def Space (span : ℕ) (confined : Prop) (root : ℕ) (w : World)
    (s : Physical) : Prop :=
  Forest span confined root w (entryAt s.mem) s.allocator.FreeAt

/-- The mapped pages are `leaves`, and `n` frames can be taken. -/
def Ledger (leaves : List ℕ → Option PageTableEntry) (n : ℕ) (w : World)
    (s : Physical) : Prop :=
  w.leaves = leaves ∧ s.allocator.Room n

theorem Ledger.leaf_of_update {leaves : List ℕ → Option PageTableEntry}
    {path : List ℕ} {e : PageTableEntry} {n : ℕ} {w : World} {s : Physical}
    (h : Ledger (Function.update leaves path (some e)) n w s) :
    w.leaves path = some e := by
  rw [h.1, Function.update_self]

/-- With `confined`, the leaf leads to a data frame. -/
def LeadsToData (confined : Prop) (e : PageTableEntry) (w : World) : Prop :=
  confined → w.role e.physAddr.toNat = some .data

/-- The leaf that `map_page` stores. -/
abbrev pageLeaf (physAddr : BitVec 64) (flags : PageTableFlags) :
    PageTableEntry :=
  .encode physAddr (flags.union present)

/-- The place of a page: its indices, that of the lowest table first. -/
def pagePath (va : BitVec 64) : List ℕ :=
  [tableIndex va 1, tableIndex va 2, tableIndex va 3, tableIndex va 4]

section Specifications

variable {span : ℕ} {confined : Prop} {root : ℕ} {total : Prop}
  {w : World} {s s' : Physical} {leaves : List ℕ → Option PageTableEntry}
  {n : ℕ} {A : ℕ → World → Physical → Prop}

/-- Memory outside the tables may change, and frames may be taken. -/
theorem Space.of_same_tables (h : Space span confined root w s)
    (hmem : ∀ {t path}, w.role t = some (.table path) →
      ∀ i, t ≤ i ∧ i < t + frameSize → s'.mem i = s.mem i)
    (hfree : ∀ {p}, s'.allocator.FreeAt p → s.allocator.FreeAt p) :
    Space span confined root w s' := by
  refine Forest.congr h ?_ hfree
  intro t path i ht hi
  exact entryAt_congr hi (hmem ht)

variable {p i : ℕ} {physAddr : BitVec 64} {path : List ℕ}
  {B : World → Physical → Prop} {flags : PageTableFlags} {va : BitVec 64}

theorem Space.mem_takes (h : Space span confined root w s) {q : ℕ} {r : Role}
    (htake : TakesFrame s p s') (hq : w.role q = some r) :
    ∀ i, q ≤ i ∧ i < q + frameSize → s'.mem i = s.mem i :=
  htake.mem_eq (h.used hq).1 (h.used hq).2

theorem Space.takes (h : Space span confined root w s)
    (htake : TakesFrame s p s') :
    Space span confined root w s' ∧ w.role p = none ∧
      ¬ s'.allocator.FreeAt p := by
  have hnone : w.role p = none := Forest.role_none_of_free h htake.free
  have hfree : ¬ s'.allocator.FreeAt p := by
    intro hp
    exact ((htake.marks p).mp hp).2 rfl
  refine ⟨h.of_same_tables (fun ht => h.mem_takes htake ht) ?_, hnone, hfree⟩
  intro q hq
  exact ((htake.marks q).mp hq).1

/-- Assertions that survive the making of a table.  The number is that of the
frames that can be taken. -/
structure Survives (span : ℕ) (confined : Prop) (root : ℕ)
    (A : ℕ → World → Physical → Prop) : Prop where
  room : ∀ {n w s}, A n w s → s.allocator.Room n
  spare : ∀ {n w s}, A n w s → A (n - 1) w s
  table : ∀ {n w s s' p t i path e}, Space span confined root w s →
    A n w s → w.role t = some (.table path) → i < tableEntries →
      TakesFrame s p s' → A (n - 1) (w.assign p (.table (i :: path)))
        { s' with mem := storeEntry s'.mem t i e }

theorem survives_ledger (span : ℕ) (confined : Prop) (root : ℕ)
    (leaves : List ℕ → Option PageTableEntry) :
    Survives span confined root (Ledger leaves) where
  room h := h.2
  spare h := ⟨h.1, h.2.mono (Nat.sub_le _ 1)⟩
  table _ h _ _ htake := ⟨h.1, htake.room _ h.2⟩

theorem allocErased_evolves {ε : Type} (e : ε) (htotal : total → 1 ≤ n) :
    Evolves (Space span confined root) total (Ledger leaves n)
      (allocErased e)
      (fun p w s => Ledger leaves (n - 1) w s ∧ w.role p = some .data ∧
        p % frameSize = 0 ∧ p < 2 ^ 32) := by
  rintro w s hspace ⟨hleaves, hroom⟩
  rcases eval_allocErased e s with ⟨heval, hno⟩ | ⟨p, s', heval, htake⟩
  · rw [heval]
    refine ⟨w, le_rfl, hspace, fun _ h => (nomatch h), fun ht => ?_⟩
    obtain ⟨k, rfl⟩ := Nat.exists_eq_add_of_le' (htotal ht)
    exact (hno k hroom).elim
  · obtain ⟨hspace', hnone, hfree⟩ := hspace.takes htake
    rw [heval]
    refine ⟨w.assign p .data, World.le_assign _ hnone,
      Forest.assign_data hspace' hnone htake.free.1 hfree, ?_,
      fun _ => ⟨p, rfl⟩⟩
    rintro _ ⟨⟩
    exact ⟨⟨hleaves, htake.room n hroom⟩, World.role_assign_same w p .data,
      htake.free.1, htake.bound⟩

theorem Space.write_data (h : Space span confined root w s) {off : ℕ}
    {bytes : List Byte} (hrole : w.role p = some .data)
    (hfit : off + bytes.length ≤ frameSize) :
    Space span confined root w
      { s with mem := s.mem.write (p + off) bytes } := by
  refine h.of_same_tables ?_ fun hp => hp
  intro t path ht i hi
  have hne : t ≠ p := by
    rintro rfl
    rw [hrole] at ht
    cases ht
  have hout := frame_disjoint (h.used hrole).1 (h.used ht).1 hne hi
  apply Mem.write_apply_outside
  omega

theorem copyToPhys_evolves {ε : Type} {A : World → Physical → Prop} {off : ℕ}
    {bytes : List Byte} (hfit : off + bytes.length ≤ frameSize)
    (hdata : ∀ w s, A w s → w.role p = some .data)
    (hA : ∀ w s m, A w s → A w { s with mem := m }) :
    Evolves (Space span confined root) total A
      (copyToPhys (p + off) bytes : Prog Physical ε Unit)
      (fun _ => A) := by
  intro w s hspace h
  exact ⟨w, le_rfl, hspace.write_data (hdata w s h) hfit,
    fun _ _ => hA w s _ h, fun _ => ⟨(), rfl⟩⟩

/-- A new table is empty, and the entry that was absent leads to it. -/
theorem Space.link (h : Space span confined root w s) {t : ℕ}
    (hlen : path.length < 3) (hi : Managed span path i)
    (ht : w.role t = some (.table path))
    (habsent : (entryAt s.mem t i).isPresent = false)
    (htake : TakesFrame s p s') :
    w ≤ w.assign p (.table (i :: path)) ∧
      Space span confined root (w.assign p (.table (i :: path))) { s' with
        mem := storeEntry s'.mem t i (.encode (BitVec.ofNat 64 p) mid) } := by
  obtain ⟨hspace, hnone, hfree⟩ := h.takes htake
  have haligned : t % frameSize = 0 := (h.used ht).1
  have hne : p ≠ t := by
    rintro rfl
    rw [hnone] at ht
    cases ht
  have hflags : (entryAt (storeEntry s'.mem t i
      (.encode (BitVec.ofNat 64 p) mid)) t i).flags = mid := by
    rw [entryAt_storeEntry_same]
    exact PageTableEntry.flags_encode_mid _
  refine ⟨World.le_assign _ hnone, Forest.assign_table ht ?_ hspace hnone
    htake.free.1 hfree hlen hi ?_ hflags ?_ ?_ ?_⟩
  · intro t' path' j ht' hj hother
    exact entryAt_storeEntry_of_ne _ _ haligned (h.used ht').1 hi.1 hj hother
  · rw [entryAt_congr hi.1 (h.mem_takes htake ht)]
    exact habsent
  · rw [PageTableEntry.isPresent, hflags]
    decide
  · rw [entryAt_storeEntry_same]
    exact PageTableEntry.physAddr_encode htake.free.1
      (lt_trans htake.bound (by decide)) (by decide)
  · intro j hj
    rw [entryAt_storeEntry_of_ne _ _ haligned htake.free.1 hi.1 hj
      (fun hboth => hne hboth.1), entryAt_erased hj htake.erased]
    decide

theorem allocOrGetTable_evolves (hA : Survives span confined root A) {t : ℕ}
    (hlen : path.length < 3) (hi : Managed span path i)
    (htotal : total → 1 ≤ n) :
    Evolves (Space span confined root) total
      (fun w s => A n w s ∧ w.role t = some (.table path))
      (allocOrGetTable t i)
      (fun t' w s => A (n - 1) w s ∧
        w.role t' = some (.table (i :: path))) := by
  rintro w s hspace ⟨hpre, ht⟩
  rcases allocOrGetTable_cases s t i with
    ⟨e, heval, hfailed⟩ | ⟨hpresent, -, heval⟩ | ⟨habsent, p, s', htake, heval⟩
  · rw [heval]
    refine ⟨w, le_rfl, hspace, fun _ h => (nomatch h), fun hreturn => ?_⟩
    rcases hfailed with ⟨hpresent, hhuge⟩ | hno
    · rw [(hspace.child ht hlen hi hpresent).1] at hhuge
      exact absurd hhuge (by decide)
    · obtain ⟨k, rfl⟩ := Nat.exists_eq_add_of_le' (htotal hreturn)
      exact (hno k (hA.room hpre)).elim
  · rw [heval]
    refine ⟨w, le_rfl, hspace, ?_, fun _ => ⟨_, rfl⟩⟩
    rintro _ ⟨⟩
    exact ⟨hA.spare hpre, (hspace.child ht hlen hi hpresent).2⟩
  · obtain ⟨hle, hspace'⟩ := hspace.link hlen hi ht habsent htake
    rw [heval]
    refine ⟨_, hle, hspace', ?_, fun _ => ⟨p, rfl⟩⟩
    rintro _ ⟨⟩
    exact ⟨hA.table hspace hpre ht hi.1 htake, World.role_assign_same w p _⟩

/-- The effect of a new leaf on assertions: `C` before, `B` after. -/
def LeafStep (span : ℕ) (confined : Prop) (root : ℕ) (path : List ℕ) (i : ℕ)
    (e : PageTableEntry) (C B : World → Physical → Prop) : Prop :=
  ∀ w s t, Space span confined root w s → C w s →
    w.role t = some (.table path) → w.leaves (i :: path) = none →
      B (w.map (i :: path) e) { s with mem := storeEntry s.mem t i e }

theorem putLeaf_evolves {C : World → Physical → Prop} {pt : ℕ}
    {entry : PageTableEntry} (hlen : path.length = 3) (hi : i < tableEntries)
    (hpresent : entry.isPresent = true)
    (hstep : LeafStep span confined root path i entry C B)
    (htotal : total → ∀ w s, C w s → w.leaves (i :: path) = none) :
    Evolves (Space span confined root) total
      (fun w s => (C w s ∧ w.role pt = some (.table path)) ∧
        LeadsToData confined entry w)
      (putLeaf pt i (.ok entry)) (fun _ => B) := by
  rintro w s hspace ⟨⟨hpre, ht⟩, hdata⟩
  rcases putLeaf_cases s pt i (.ok entry) with
    ⟨e, heval, htaken | herror⟩ | ⟨habsent, e, hentry, heval⟩
  · rw [heval]
    refine ⟨w, le_rfl, hspace, fun _ h => (nomatch h), fun hreturn => ?_⟩
    have hleaf := hspace.leaf ht hlen hi htaken
    rw [htotal hreturn w s hpre] at hleaf
    cases hleaf
  · cases herror
  · cases hentry
    have hnone : w.leaves (i :: path) = none := hspace.leaf_eq_none ht habsent
    have hleaf := entryAt_storeEntry_same s.mem pt i entry
    have hforest : Forest span confined root
        (w.map (i :: path) (entryAt (storeEntry s.mem pt i entry) pt i))
        (entryAt (storeEntry s.mem pt i entry)) s.allocator.FreeAt := by
      refine Forest.map_leaf ht ?_ hspace hlen hi habsent ?_ ?_
      · intro t' path' j ht' hj hother
        exact entryAt_storeEntry_of_ne _ _ (hspace.used ht).1
          (hspace.used ht').1 hi hj hother
      · rw [hleaf]
        exact hpresent
      · rw [hleaf]
        exact hdata
    rw [hleaf] at hforest
    rw [heval]
    exact ⟨w.map (i :: path) entry, World.le_map _ hnone, hforest,
      fun _ _ => hstep w s pt hspace hpre ht hnone, fun _ => ⟨(), rfl⟩⟩

theorem allocOrGetTable_bind {α : Type} (hA : Survives span confined root A)
    {F : World → Prop} {t : ℕ} {f : ℕ → Prog Physical MmuError α}
    {B : α → World → Physical → Prop} (hF : Monotone F) (hlen : path.length < 3)
    (hi : Managed span path i) (htotal : total → 1 ≤ n)
    (hrest : ∀ t', Evolves (Space span confined root) total
      (fun w s => (A (n - 1) w s ∧
        w.role t' = some (.table (i :: path))) ∧ F w) (f t') B) :
    Evolves (Space span confined root) total
      (fun w s => (A n w s ∧ w.role t = some (.table path)) ∧ F w)
      (allocOrGetTable t i >>= f) B :=
  Evolves.bind (Evolves.frame hF (allocOrGetTable_evolves hA hlen hi htotal))
    hrest

/-- `map_page` maps the page with the effect of its leaf; it succeeds on a
page that is not mapped when three frames are free. -/
theorem mapPage_survives (hA : Survives span confined root A)
    (hspan : tableIndex va 4 < span)
    (hstep : LeafStep span confined root
      [tableIndex va 2, tableIndex va 3, tableIndex va 4] (tableIndex va 1)
      (pageLeaf physAddr flags) (A (n - 3)) B)
    (htotal : total → unaligned va = false ∧ unaligned physAddr = false ∧
      (flags.contains writable = true → flags.contains noExecute = true) ∧
      3 ≤ n ∧ ∀ w s, A (n - 3) w s → w.leaves (pagePath va) = none) :
    Evolves (Space span confined root) total
      (fun w s => A n w s ∧ LeadsToData confined (pageLeaf physAddr flags) w)
      (mapPage root va physAddr flags) (fun _ => B) := by
  have hframe : Monotone (LeadsToData confined (pageLeaf physAddr flags)) :=
    fun _ _ hle h hc => hle.1 _ _ (h hc)
  have hroom : ∀ k, k < 3 → total → 1 ≤ n - k := by
    intro k hk hreturn
    have hn := (htotal hreturn).2.2.2.1
    omega
  have hmanaged : ∀ level i path, Managed span (i :: path) (tableIndex va level) :=
    fun level i path => ⟨tableIndex_lt va level, fun h => (nomatch h)⟩
  unfold mapPage
  refine Evolves.exitIf_bind ?_ fun haligned => ?_
  · rintro (hva | hpa) hreturn
    · rw [(htotal hreturn).1] at hva
      cases hva
    · rw [(htotal hreturn).2.1] at hpa
      cases hpa
  refine Evolves.exitIf_bind ?_ fun _ => ?_
  · rintro ⟨hwrite, hexec⟩ hreturn
    exact hexec ((htotal hreturn).2.2.1 hwrite)
  have hphys : unaligned physAddr = false := by
    simpa using fun h => haligned (.inr h)
  have hdown : Evolves (Space span confined root) total
      (fun w s => (A n w s ∧ w.role root = some (.table [])) ∧
        LeadsToData confined (pageLeaf physAddr flags) w)
      (do
        let pdpt ← allocOrGetTable root (tableIndex va 4)
        let pd ← allocOrGetTable pdpt (tableIndex va 3)
        let pt ← allocOrGetTable pd (tableIndex va 2)
        putLeaf pt (tableIndex va 1)
          (PageTableEntry.set physAddr (flags.union present)))
      (fun _ => B) := by
    refine allocOrGetTable_bind hA hframe (by simp)
      ⟨tableIndex_lt va 4, fun _ => hspan⟩ (hroom 0 (by decide)) fun pdpt => ?_
    refine allocOrGetTable_bind hA hframe (by simp) (hmanaged 3 _ _)
      (hroom 1 (by decide)) fun pd => ?_
    refine allocOrGetTable_bind hA hframe (by simp) (hmanaged 2 _ _)
      (hroom 2 (by decide)) fun pt => ?_
    rw [PageTableEntry.set, hphys, if_neg Bool.false_ne_true]
    exact putLeaf_evolves rfl (tableIndex_lt va 1)
      (PageTableEntry.isPresent_encode physAddr flags) hstep
      fun hreturn => (htotal hreturn).2.2.2.2
  refine hdown.weaken ?_ fun _ _ _ h => h
  rintro w s hspace ⟨hpre, hdata⟩
  exact ⟨⟨hpre, hspace.root_iff.mpr rfl⟩, hdata⟩

theorem leafStep_ledger {e : PageTableEntry} :
    LeafStep span confined root path i e (Ledger leaves n)
      (Ledger (Function.update leaves (i :: path) (some e)) n) := by
  rintro w s t - ⟨hleaves, hroom⟩ - -
  refine ⟨?_, hroom⟩
  rw [← hleaves]
  rfl

/-- A successful `map_page` adds the leaf of the page and nothing else; it
succeeds on a page that is not mapped when three frames are free. -/
theorem mapPage_evolves (hspan : tableIndex va 4 < span)
    (htotal : total → unaligned va = false ∧ unaligned physAddr = false ∧
      (flags.contains writable = true → flags.contains noExecute = true) ∧
      3 ≤ n ∧ leaves (pagePath va) = none) :
    Evolves (Space span confined root) total
      (fun w s => Ledger leaves n w s ∧
        LeadsToData confined (pageLeaf physAddr flags) w)
      (mapPage root va physAddr flags)
      (fun _ => Ledger (Function.update leaves (pagePath va)
        (some (pageLeaf physAddr flags))) (n - 3)) := by
  refine mapPage_survives (survives_ledger span confined root leaves) hspan
    leafStep_ledger fun hreturn => ?_
  obtain ⟨hva, hpa, hwx, hroom, hnone⟩ := htotal hreturn
  refine ⟨hva, hpa, hwx, hroom, fun w s h => ?_⟩
  rw [h.1]
  exact hnone

theorem tableIndex_eq (va : BitVec 64) (level : ℕ) :
    tableIndex va level = va.toNat / 2 ^ (12 + (level - 1) * 9) % 512 := by
  unfold tableIndex
  rw [BitVec.toNat_and, BitVec.toNat_ushiftRight, Nat.shiftRight_eq_div_pow]
  exact Nat.and_two_pow_sub_one_eq_mod _ 9

theorem tableIndex_four_lt (h : va.toNat < 2 ^ 47) : tableIndex va 4 < 256 := by
  rw [tableIndex_eq]
  omega

theorem isUserVa_iff (va : BitVec 64) :
    isUserVa va = true ↔ va.toNat < 2 ^ 47 ∧ unaligned va = false := by
  rw [isUserVa, decide_eq_true_iff, Bool.not_eq_true]
  exact Iff.rfl

theorem pagePath_injective {va' : BitVec 64} (hva : isUserVa va = true)
    (hva' : isUserVa va' = true) (h : pagePath va = pagePath va') :
    va = va' := by
  obtain ⟨hlow, haligned⟩ := (isUserVa_iff va).mp hva
  obtain ⟨hlow', haligned'⟩ := (isUserVa_iff va').mp hva'
  rw [unaligned_eq, decide_eq_false_iff_not, not_not] at haligned haligned'
  unfold pagePath at h
  simp only [tableIndex_eq, List.cons.injEq, and_true] at h
  apply BitVec.eq_of_toNat_eq
  omega

theorem mapUserPage_survives (hA : Survives span confined root A) {write : Bool}
    (hspan : 256 ≤ span)
    (hstep : LeafStep span confined root
      [tableIndex va 2, tableIndex va 3, tableIndex va 4] (tableIndex va 1)
      (pageLeaf physAddr (userPageFlags write)) (A (n - 3)) B)
    (htotal : total → isUserVa va = true ∧ unaligned physAddr = false ∧
      3 ≤ n ∧ ∀ w s, A (n - 3) w s → w.leaves (pagePath va) = none) :
    Evolves (Space span confined root) total
      (fun w s => A n w s ∧
        LeadsToData confined (pageLeaf physAddr (userPageFlags write)) w)
      (mapUserPage root va physAddr write)
      (fun _ w s => B w s ∧ isUserVa va = true) := by
  unfold mapUserPage
  refine Evolves.exitIf_bind (fun hva hreturn => hva (htotal hreturn).1)
    fun hva => ?_
  have huser : isUserVa va = true := not_not.mp hva
  have hbound := (isUserVa_iff va).mp huser
  have hwx : (userPageFlags write).contains writable = true →
      (userPageFlags write).contains noExecute = true := by
    cases write with
    | false => decide
    | true => decide
  have hmap : Evolves (Space span confined root) total _
      (mapPage root va physAddr (userPageFlags write)) _ :=
    mapPage_survives hA (lt_of_lt_of_le (tableIndex_four_lt hbound.1) hspan)
      hstep fun hreturn => by
        obtain ⟨-, hphys, hroom, hnone⟩ := htotal hreturn
        exact ⟨hbound.2, hphys, hwx, hroom, hnone⟩
  exact hmap.weaken (fun _ _ _ h => h) fun _ _ _ h => ⟨h, huser⟩

theorem mapUserPage_evolves {write : Bool} (hspan : 256 ≤ span)
    (htotal : total → isUserVa va = true ∧ unaligned physAddr = false ∧
      3 ≤ n ∧ leaves (pagePath va) = none) :
    Evolves (Space span confined root) total
      (fun w s => Ledger leaves n w s ∧
        LeadsToData confined (pageLeaf physAddr (userPageFlags write)) w)
      (mapUserPage root va physAddr write)
      (fun _ w s => Ledger (Function.update leaves (pagePath va)
        (some (pageLeaf physAddr (userPageFlags write)))) (n - 3) w s ∧
          isUserVa va = true) := by
  refine mapUserPage_survives (survives_ledger span confined root leaves)
    hspan leafStep_ledger fun hreturn => ?_
  obtain ⟨huser, hphys, hroom, hnone⟩ := htotal hreturn
  refine ⟨huser, hphys, hroom, fun w s h => ?_⟩
  rw [h.1]
  exact hnone

end Specifications

/-! ## Walking the tree -/

section Walks

variable {span : ℕ} {confined : Prop} {root : ℕ} {w : World} {s : Physical}
  {va : BitVec 64} {e : PageTableEntry}

theorem Space.path_to_leaf (h : Space span confined root w s)
    (hleaf : w.leaves (pagePath va) = some e) :
    ∃ pdpt pd pt,
      ((entryAt s.mem root (tableIndex va 4)).flags = mid ∧
        (entryAt s.mem root (tableIndex va 4)).physAddr.toNat = pdpt) ∧
      ((entryAt s.mem pdpt (tableIndex va 3)).flags = mid ∧
        (entryAt s.mem pdpt (tableIndex va 3)).physAddr.toNat = pd) ∧
      ((entryAt s.mem pd (tableIndex va 2)).flags = mid ∧
        (entryAt s.mem pd (tableIndex va 2)).physAddr.toNat = pt) ∧
      entryAt s.mem pt (tableIndex va 1) = e ∧ e.isPresent = true := by
  have hparent : ∀ {t i path}, w.role t = some (.table (i :: path)) →
      ∃ t', w.role t' = some (.table path) ∧
        (entryAt s.mem t' i).flags = mid ∧
          (entryAt s.mem t' i).physAddr.toNat = t := by
    intro t i path ht
    obtain ⟨t', ht', hlen, hi, hpresent, haddr⟩ := h.parent ht
    exact ⟨t', ht', (h.child ht' hlen hi hpresent).1, haddr⟩
  obtain ⟨pt, i, path, hpath, hpt, -, -, he, hpresent, -⟩ := h.mapped hleaf
  cases hpath
  obtain ⟨pd, hpd, hentry₂⟩ := hparent hpt
  obtain ⟨pdpt, hpdpt, hentry₃⟩ := hparent hpd
  obtain ⟨pml4, hpml4, hentry₄⟩ := hparent hpdpt
  obtain rfl := h.root_iff.mp hpml4
  exact ⟨pdpt, pd, pt, hentry₄, hentry₃, hentry₂, he, hpresent⟩

theorem getLsbD_of_flags_mid (h : e.flags = mid) {k : ℕ} (hk : k < 64)
    (hflag : ¬ (12 ≤ k ∧ k < 52)) :
    e.word.getLsbD k = mid.contains (bit k) := by
  rw [← PageTableEntry.flags_contains_bit e hk hflag, h]

theorem isPresent_of_mid (h : e.flags = mid) : e.isPresent = true := by
  rw [PageTableEntry.isPresent, h]
  decide

/-- Above the lowest level, an entry that `alloc_or_get_table` follows is one
that the processor follows. -/
theorem links_of_present {level : ℕ} (hlevel : 1 < level)
    (hpresent : e.isPresent = true)
    (hhuge : e.flags.contains hugePage = false) : x86Format.Links level e := by
  constructor
  · rw [PageTableEntry.isPresent_eq] at hpresent
    exact hpresent
  · rw [hugePage, PageTableEntry.flags_contains_bit e (by omega) (by omega)]
      at hhuge
    show (decide (level = 1) || (decide (level < 4) && e.word.getLsbD 7)) = _
    rw [hhuge, Bool.and_false, Bool.or_false, decide_eq_false (by omega)]

theorem hardwareWalk_mid {m : Mem} {level t : ℕ} (hlevel : 0 < level)
    (h : (entryAt m t (tableIndex va (level + 1))).flags = mid) :
    hardwareWalk m va (level + 1) t =
      (hardwareWalk m va level
        (entryAt m t (tableIndex va (level + 1))).physAddr.toNat).map
          (entryAt m t (tableIndex va (level + 1)) :: ·) := by
  have hlinks := links_of_present (Nat.succ_lt_succ hlevel)
    (isPresent_of_mid h) (by rw [h]; decide)
  rw [hardwareWalk, Radix.walk_of_links hlinks, hardwareWalk, Option.map_map,
    Option.map_map]
  rfl

/-- The hardware finds the leaf of a mapped page below three entries with the
flags `mid`. -/
theorem Space.hardwareWalk_eq (h : Space span confined root w s)
    (hleaf : w.leaves (pagePath va) = some e) :
    ∃ e₄ e₃ e₂, hardwareWalk s.mem va 4 root = some [e₄, e₃, e₂, e] ∧
      e₄.flags = mid ∧ e₃.flags = mid ∧ e₂.flags = mid := by
  obtain ⟨pdpt, pd, pt, ⟨hflags₄, haddr₄⟩, ⟨hflags₃, haddr₃⟩,
    ⟨hflags₂, haddr₂⟩, he, hpresent⟩ := h.path_to_leaf hleaf
  have hbit : e.word.getLsbD 0 = true := by
    rw [← PageTableEntry.isPresent_eq]
    exact hpresent
  have hlast : hardwareWalk s.mem va 1 pt = some [e] := by
    rw [← he] at hbit
    rw [hardwareWalk, Radix.walk_of_leaf hbit rfl, he]
    rfl
  refine ⟨_, _, _, ?_, hflags₄, hflags₃, hflags₂⟩
  rw [hardwareWalk_mid (by omega) hflags₄, haddr₄,
    hardwareWalk_mid (by omega) hflags₃, haddr₃,
    hardwareWalk_mid (by omega) hflags₂, haddr₂, hlast]
  rfl

theorem nextTable_of_mid {m : Mem} {t i : ℕ} (h : (entryAt m t i).flags = mid) :
    nextTable m t i = some (entryAt m t i).physAddr.toNat := by
  have hhuge : mid.contains hugePage = false := by decide
  simp [nextTable, isPresent_of_mid h, h, hhuge]

theorem nextTable_eq_some {m : Mem} {t i next : ℕ}
    (h : nextTable m t i = some next) :
    (entryAt m t i).isPresent = true ∧
      (entryAt m t i).physAddr.toNat = next := by
  unfold nextTable at h
  dsimp only at h
  split at h
  · cases h
  · rename_i hfollow
    exact ⟨not_not.mp (not_or.mp hfollow).1, Option.some.inj h⟩

/-- `walk_to_phys` looks the page up among the mapped ones. -/
theorem Space.walkToPhys_eq (h : Space span confined root w s)
    (hspan : tableIndex va 4 < span) :
    walkToPhys s.mem root va =
      (w.leaves (pagePath va)).map PageTableEntry.physAddr := by
  have hmanaged : ∀ level i path,
      Managed span (i :: path) (tableIndex va level) :=
    fun level _ _ => ⟨tableIndex_lt va level, fun h => absurd h (by simp)⟩
  rcases hwalk : walkToPhys s.mem root va with _ | phys
  · -- the walk would have found the leaf
    rcases hleaf : w.leaves (pagePath va) with _ | e
    · rfl
    · obtain ⟨pdpt, pd, pt, ⟨hflags₄, rfl⟩, ⟨hflags₃, rfl⟩, ⟨hflags₂, rfl⟩,
        rfl, hpresent⟩ := h.path_to_leaf hleaf
      simp [walkToPhys, isPresent_of_mid hflags₄, nextTable_of_mid hflags₃,
        nextTable_of_mid hflags₂, hpresent] at hwalk
  · -- every entry that it follows leads to a table of the tree
    unfold walkToPhys at hwalk
    dsimp only at hwalk
    split at hwalk
    · cases hwalk
    · rename_i hpresent₄
      obtain ⟨pd, hpd, hwalk⟩ := Option.bind_eq_some_iff.mp hwalk
      obtain ⟨pt, hpt, hwalk⟩ := Option.bind_eq_some_iff.mp hwalk
      obtain ⟨hpresent₃, rfl⟩ := nextTable_eq_some hpd
      obtain ⟨hpresent₂, rfl⟩ := nextTable_eq_some hpt
      have hpdpt := (h.child (h.root_iff.mpr rfl) (by simp)
        ⟨tableIndex_lt va 4, fun _ => hspan⟩ (not_not.mp hpresent₄)).2
      have hpd := (h.child hpdpt (by simp) (hmanaged 3 _ _) hpresent₃).2
      have hpt := (h.child hpd (by simp) (hmanaged 2 _ _) hpresent₂).2
      split at hwalk
      · cases hwalk
      · rename_i hpresent₁
        rw [pagePath, h.leaf hpt rfl (tableIndex_lt va 1)
          (not_not.mp hpresent₁), Option.map_some]
        exact hwalk.symm

end Walks

end IsoLightK0
