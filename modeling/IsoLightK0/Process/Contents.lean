import IsoLightK0.Process.AddressSpace

/-!
# What the pages of an address space hold

Building a process writes to frames in three ways: tables are filled in, new
frames are erased, and octets are copied into a page.  The first two leave the
frames that hold data alone, so what is in them is kept while pages are mapped.

A `PageMap` says which frame a user page has, whether it is writable, and what
is in it.  `Holds` relates it to the address space in memory.
-/

namespace IsoLightK0

open Bytes Triples Worlds PageTableFlags

def Kept (C : ℕ → Mem → Prop) (w : World) (s : Physical) : Prop :=
  ∀ q octets, C q octets → w.role q = some .data ∧
    ∀ i, i < frameSize → s.mem (q + i) = octets i

section Frames

variable {span : ℕ} {confined : Prop} {root : ℕ} {w w' : World}
  {s s' : Physical} {C : ℕ → Mem → Prop} {n : ℕ}
  {leaves : List ℕ → Option PageTableEntry}

theorem Kept.step (h : Kept C w s) (hle : w ≤ w')
    (hmem : ∀ q, w.role q = some .data →
      ∀ i, q ≤ i ∧ i < q + frameSize → s'.mem i = s.mem i) :
    Kept C w' s' := by
  intro q octets hq
  obtain ⟨hrole, hoctets⟩ := h q octets hq
  refine ⟨hle.1 _ _ hrole, fun i hi => ?_⟩
  rw [hmem q hrole (q + i) ⟨by omega, by omega⟩]
  exact hoctets i hi

theorem Space.mem_store (h : Space span confined root w s) {t q index : ℕ}
    {path : List ℕ} {e : PageTableEntry} (m : Mem)
    (ht : w.role t = some (.table path)) (hindex : index < tableEntries)
    (hq : w.role q = some .data) :
    ∀ i, q ≤ i ∧ i < q + frameSize → storeEntry m t index e i = m i := by
  intro i hi
  have hne : q ≠ t := by
    rintro rfl
    rw [hq] at ht
    cases ht
  have hout := frame_disjoint (h.used ht).1 (h.used hq).1 hne hi
  apply Mem.write_apply_outside
  rw [length_wordToLe]
  unfold tableEntries at hindex
  unfold frameSize at hout
  omega

theorem survives_kept (span : ℕ) (confined : Prop) (root : ℕ)
    (leaves : List ℕ → Option PageTableEntry) (C : ℕ → Mem → Prop) :
    Survives span confined root
      (fun n w s => Ledger leaves n w s ∧ Kept C w s) where
  room h := h.1.2
  spare h := ⟨(survives_ledger span confined root leaves).spare h.1, h.2⟩
  table {n w s s' p t i path e} hspace h ht hi htake := by
    obtain ⟨hspace', hnone, -⟩ := hspace.takes htake
    refine ⟨(survives_ledger span confined root leaves).table hspace h.1 ht hi
      htake, h.2.step (World.le_assign _ hnone) fun q hq j hj => ?_⟩
    exact (hspace.mem_store s'.mem ht hi hq j hj).trans
      (hspace.mem_takes htake hq j hj)

theorem leafStep_kept {path : List ℕ} {i : ℕ} {e : PageTableEntry}
    (hi : i < tableEntries) :
    LeafStep span confined root path i e
      (fun w s => Ledger leaves n w s ∧ Kept C w s)
      (fun w s => (Ledger (Function.update leaves (i :: path) (some e)) n w s ∧
        Kept C w s) ∧ leaves (i :: path) = none) := by
  intro w s t hspace h ht hnone
  refine ⟨⟨leafStep_ledger w s t hspace h.1 ht hnone,
    h.2.step (World.le_map e hnone) fun q hq => ?_⟩, ?_⟩
  · exact hspace.mem_store s.mem ht hi hq
  · rw [← h.1.1]
    exact hnone

theorem allocErased_kept {ε : Type} (e : ε) :
    Evolves (Space span confined root) False
      (fun w s => Ledger leaves n w s ∧ Kept C w s) (allocErased e)
      (fun p w s => (Ledger leaves (n - 1) w s ∧
          Kept (fun q octets => C q octets ∨ q = p ∧ octets = fun _ => 0) w s) ∧
        (p % frameSize = 0 ∧ p < 2 ^ 32) ∧ ∀ octets, ¬ C p octets) := by
  rintro w s hspace ⟨⟨hleaves, hroom⟩, hkept⟩
  rcases eval_allocErased e s with ⟨heval, -⟩ | ⟨p, s', heval, htake⟩
  · rw [heval]
    exact ⟨w, le_rfl, hspace, fun _ h => (nomatch h), False.elim⟩
  · obtain ⟨hspace', hnone, hfree⟩ := hspace.takes htake
    have hle : w ≤ w.assign p .data := World.le_assign _ hnone
    rw [heval]
    refine ⟨w.assign p .data, hle,
      Forest.assign_data hspace' hnone htake.free.1 hfree, ?_, False.elim⟩
    rintro _ ⟨⟩
    refine ⟨⟨⟨hleaves, htake.room n hroom⟩, ?_⟩, ⟨htake.free.1, htake.bound⟩,
      fun octets hold => ?_⟩
    · rintro q octets (hold | ⟨rfl, rfl⟩)
      · exact hkept.step hle (fun q hq => hspace.mem_takes htake hq) q octets
          hold
      · exact ⟨World.role_assign_same w q .data, fun i hi =>
          htake.erased (q + i) ⟨by omega, by omega⟩⟩
    · rw [(hkept p octets hold).1] at hnone
      cases hnone

end Frames

/-! ## Pages -/

/-- A user page: its frame, whether it is writable, and what is in it. -/
structure UserPage where
  frame : ℕ
  aligned : frame % frameSize = 0
  bound : frame < 2 ^ 32
  write : Bool
  octets : Mem

namespace UserPage

def leaf (page : UserPage) : PageTableEntry :=
  .encode (BitVec.ofNat 64 page.frame) ((userPageFlags page.write).union present)

theorem physAddr_leaf (page : UserPage) :
    page.leaf.physAddr.toNat = page.frame :=
  userLeaf_physAddr page.write page.aligned page.bound

def overwrite (page : UserPage) (off : ℕ) (bytes : List Byte) : UserPage :=
  { page with octets := page.octets.write off bytes }

end UserPage

/-- The user pages of an address space, by their addresses. -/
def PageMap := BitVec 64 → Option UserPage

namespace PageMap

/-- A page map is extended by giving pages to addresses that have none. -/
instance : Preorder PageMap where
  le pages pages' := ∀ va page, pages va = some page → pages' va = some page
  le_refl _ _ _ h := h
  le_trans _ _ _ h₁ h₂ va page h := h₂ va page (h₁ va page h)

def set (pages : PageMap) (va : BitVec 64) (page : UserPage) : PageMap :=
  fun va' => if va' = va then some page else pages va'

theorem set_same (pages : PageMap) (va : BitVec 64) (page : UserPage) :
    pages.set va page va = some page :=
  if_pos rfl

variable {va : BitVec 64} {pages pages' : PageMap}

theorem set_of_ne (pages : PageMap) {va' : BitVec 64} (page : UserPage)
    (h : va' ≠ va) : pages.set va page va' = pages va' :=
  if_neg h

theorem set_cases {va' : BitVec 64} {page page' : UserPage}
    (h : pages.set va page va' = some page') :
    (va' = va ∧ page' = page) ∨ (va' ≠ va ∧ pages va' = some page') := by
  by_cases heq : va' = va
  · rw [heq, set_same] at h
    exact .inl ⟨heq, (Option.some.inj h).symm⟩
  · rw [set_of_ne pages page heq] at h
    exact .inr ⟨heq, h⟩

theorem le_set (page : UserPage) (hle : pages ≤ pages') (h : pages va = none) :
    pages ≤ pages'.set va page := by
  intro va' page' hpage
  have hne : va' ≠ va := by
    rintro rfl
    rw [h] at hpage
    cases hpage
  rw [set_of_ne pages' page hne]
  exact hle va' page' hpage

theorem eq_none_of_le (hle : pages ≤ pages') (h : pages' va = none) :
    pages va = none := by
  cases hpage : pages va with
  | none => rfl
  | some page =>
    rw [hle va page hpage] at h
    cases h

/-- The first `k` pages from `base` on hold what `image` says. -/
def Region (pages : PageMap) (base : BitVec 64) (k : ℕ) (write : Bool)
    (image : Mem) : Prop :=
  ∀ i, i < k → ∃ page, pages (pageVa base i) = some page ∧
    page.write = write ∧
      ∀ off, off < frameSize → page.octets off = image (i * pageSize + off)

theorem Region.mono {base : BitVec 64} {k : ℕ} {write : Bool} {image : Mem}
    (h : pages.Region base k write image) (hle : pages ≤ pages') :
    pages'.Region base k write image := by
  intro i hi
  obtain ⟨page, hpage, hrest⟩ := h i hi
  exact ⟨page, hle _ _ hpage, hrest⟩

def contents (pages : PageMap) (q : ℕ) (octets : Mem) : Prop :=
  ∃ va page, pages va = some page ∧ page.frame = q ∧ page.octets = octets

end PageMap

/-- The pages are mapped in the address space, each to a frame of its own
that holds what is in the page. -/
structure Holds (pages : PageMap) (w : World) (s : Physical) : Prop where
  user : ∀ {va page}, pages va = some page → isUserVa va = true
  leaf : ∀ {va page}, pages va = some page →
    w.leaves (pagePath va) = some page.leaf
  kept : Kept pages.contents w s
  distinct : ∀ {va va' page page'}, pages va = some page →
    pages va' = some page' → page.frame = page'.frame → va = va'

namespace Holds

variable {pages : PageMap} {w : World} {s : Physical} {va : BitVec 64}
  {page : UserPage}

theorem role (h : Holds pages w s) (hpage : pages va = some page) :
    w.role page.frame = some .data :=
  (h.kept page.frame page.octets ⟨va, page, hpage, rfl, rfl⟩).1

theorem octet (h : Holds pages w s) (hpage : pages va = some page) {i : ℕ}
    (hi : i < frameSize) : s.mem (page.frame + i) = page.octets i :=
  (h.kept page.frame page.octets ⟨va, page, hpage, rfl, rfl⟩).2 i hi

theorem eq_none (h : Holds pages w s)
    (hnone : w.leaves (pagePath va) = none) : pages va = none := by
  cases hpage : pages va with
  | none => rfl
  | some page =>
    rw [h.leaf hpage] at hnone
    cases hnone

theorem nothing (w : World) (s : Physical) : Holds (fun _ => none) w s where
  user h := nomatch h
  leaf h := nomatch h
  kept := by
    rintro q octets ⟨va, page, hpage, -⟩
    cases hpage
  distinct h := nomatch h

end Holds

/-! ## The steps of the loader -/

def Extends (leaves : List ℕ → Option PageTableEntry) (w : World) : Prop :=
  ∀ path e, leaves path = some e → w.leaves path = some e

theorem monotone_extends (leaves : List ℕ → Option PageTableEntry) :
    Monotone (Extends leaves) :=
  fun _ _ hle h path e hleaf => hle.2 path e (h path e hleaf)

theorem Extends.eq_none {leaves : List ℕ → Option PageTableEntry} {w : World}
    {path : List ℕ} (h : Extends leaves w) (hnone : w.leaves path = none) :
    leaves path = none := by
  cases hleaf : leaves path with
  | none => rfl
  | some e =>
    rw [h path e hleaf] at hnone
    cases hnone

section Steps

variable {space : ℕ} {pages : PageMap} {leaves : List ℕ → Option PageTableEntry}
  {w : World} {s : Physical} {va : BitVec 64} {page : UserPage} {off : ℕ}
  {bytes : List Byte}

theorem Holds.map_page {w' : World} {s' : Physical} (h : Holds pages w s)
    (huser : isUserVa va = true) (hnone : w.leaves (pagePath va) = none)
    (hleaves : w'.leaves =
      Function.update w.leaves (pagePath va) (some page.leaf))
    (hkept : Kept (fun q octets => pages.contents q octets ∨
      q = page.frame ∧ octets = page.octets) w' s')
    (hfresh : ∀ octets, ¬ pages.contents page.frame octets) :
    Holds (pages.set va page) w' s' := by
  have hother : ∀ {va' page'}, pages va' = some page' →
      page'.frame ≠ page.frame := fun hpage heq =>
    hfresh _ ⟨_, _, hpage, heq, rfl⟩
  constructor
  · intro va' page' hpage
    rcases PageMap.set_cases hpage with ⟨rfl, -⟩ | ⟨-, hold⟩
    · exact huser
    · exact h.user hold
  · intro va' page' hpage
    rw [hleaves]
    rcases PageMap.set_cases hpage with ⟨rfl, rfl⟩ | ⟨-, hold⟩
    · exact Function.update_self ..
    · have hne : pagePath va' ≠ pagePath va := by
        intro heq
        rw [← heq, h.leaf hold] at hnone
        cases hnone
      rw [Function.update_of_ne hne]
      exact h.leaf hold
  · rintro q octets ⟨va', page', hpage, rfl, rfl⟩
    rcases PageMap.set_cases hpage with ⟨-, rfl⟩ | ⟨-, hold⟩
    · exact hkept _ _ (.inr ⟨rfl, rfl⟩)
    · exact hkept _ _ (.inl ⟨va', page', hold, rfl, rfl⟩)
  · intro va₁ va₂ page₁ page₂ h₁ h₂ heq
    rcases PageMap.set_cases h₁ with ⟨rfl, rfl⟩ | ⟨-, hold₁⟩
    · rcases PageMap.set_cases h₂ with ⟨rfl, -⟩ | ⟨-, hold₂⟩
      · rfl
      · exact absurd heq.symm (hother hold₂)
    · rcases PageMap.set_cases h₂ with ⟨rfl, rfl⟩ | ⟨-, hold₂⟩
      · exact absurd heq (hother hold₁)
      · exact h.distinct hold₁ hold₂ heq

theorem mapUserPage_kept (va : BitVec 64) (page : UserPage)
    (C : ℕ → Mem → Prop) (leaves : List ℕ → Option PageTableEntry) :
    Evolves (UserSpace space) False
      (fun w s => (Ledger leaves 0 w s ∧ Kept C w s) ∧
        (True → w.role page.leaf.physAddr.toNat = some .data))
      (mapUserPage space va (BitVec.ofNat 64 page.frame) page.write)
      (fun _ w s => ((Ledger (Function.update leaves (pagePath va)
          (some page.leaf)) 0 w s ∧ Kept C w s) ∧
        leaves (pagePath va) = none) ∧ isUserVa va = true) :=
  mapUserPage_survives (n := 0) (survives_kept 256 True space leaves C)
    (Nat.le_refl 256) (leafStep_kept (tableIndex_lt va 1)) False.elim

theorem mapFreshPage_holds (va : BitVec 64) (write : Bool) :
    Evolves (UserSpace space) False
      (fun w s => Holds pages w s ∧ Extends leaves w)
      (mapFreshPage space va write)
      (fun _ w s => (isUserVa va = true ∧ pages va = none ∧
          leaves (pagePath va) = none) ∧
        (∃ page : UserPage, page.write = write ∧ page.octets = (fun _ => 0) ∧
          Holds (pages.set va page) w s) ∧ Extends leaves w) := by
  rintro w s hspace ⟨hholds, hextends⟩
  have hmap : Evolves (UserSpace space) False
      (fun w' s' => Ledger w.leaves 0 w' s' ∧ Kept pages.contents w' s')
      (mapFreshPage space va write)
      (fun _ w' s' => ∃ page : UserPage, page.write = write ∧
        page.octets = (fun _ => 0) ∧
        (∀ octets, ¬ pages.contents page.frame octets) ∧
        ((w'.leaves = Function.update w.leaves (pagePath va)
            (some page.leaf) ∧
          Kept (fun q octets => pages.contents q octets ∨
            q = page.frame ∧ octets = page.octets) w' s') ∧
          w.leaves (pagePath va) = none) ∧ isUserVa va = true) := by
    unfold mapFreshPage Platform.mapFreshPage
    refine Evolves.bind (allocErased_kept _) fun p => ?_
    rintro w₁ s₁ hspace₁ ⟨hpre, ⟨haligned, hbound⟩, hfresh⟩
    let page : UserPage := ⟨p, haligned, hbound, write, fun _ => 0⟩
    have hdata : w₁.role page.leaf.physAddr.toNat = some .data := by
      rw [page.physAddr_leaf]
      exact (hpre.2 p _ (.inr ⟨rfl, rfl⟩)).1
    obtain ⟨w₂, hle, hspace₂, hpost, -⟩ :=
      (mapUserPage_kept va page _ w.leaves).mapExit ProcessError.mmu w₁ s₁
        hspace₁ ⟨hpre, fun _ => hdata⟩
    refine ⟨w₂, hle, hspace₂, fun a ha => ?_, False.elim⟩
    obtain ⟨⟨⟨hledger, hkept⟩, hnone⟩, huser⟩ := hpost a ha
    exact ⟨page, rfl, rfl, hfresh, ⟨⟨hledger.1, hkept⟩, hnone⟩, huser⟩
  obtain ⟨w', hle, hspace', hpost, -⟩ := hmap w s hspace
    ⟨⟨rfl, BitmapFrameAllocator.room_zero _⟩, hholds.kept⟩
  refine ⟨w', hle, hspace', fun a ha => ?_, False.elim⟩
  obtain ⟨page, hwrite, hzero, hfresh, ⟨⟨hleaves, hkept⟩, hnone⟩, huser⟩ :=
    hpost a ha
  exact ⟨⟨huser, hholds.eq_none hnone, hextends.eq_none hnone⟩,
    ⟨page, hwrite, hzero, hholds.map_page huser hnone hleaves hkept hfresh⟩,
    monotone_extends leaves hle hextends⟩

section OnePage

variable (hpage : pages va = some page)

include hpage

theorem Holds.overwrite (h : Holds pages w s)
    (hfit : off + bytes.length ≤ frameSize) :
    Holds (pages.set va (page.overwrite off bytes)) w
      { s with mem := s.mem.write (page.frame + off) bytes } := by
  -- the frame, and so the leaf, is that of the page before
  have hback : ∀ {va' page'},
      pages.set va (page.overwrite off bytes) va' = some page' →
        ∃ page₀, pages va' = some page₀ ∧ page'.frame = page₀.frame ∧
          page'.leaf = page₀.leaf := by
    intro va' page' hset
    rcases PageMap.set_cases hset with ⟨rfl, rfl⟩ | ⟨-, hold⟩
    · exact ⟨page, hpage, rfl, rfl⟩
    · exact ⟨page', hold, rfl, rfl⟩
  constructor
  · intro va' page' hset
    obtain ⟨page₀, hold, -⟩ := hback hset
    exact h.user hold
  · intro va' page' hset
    obtain ⟨page₀, hold, -, hleaf⟩ := hback hset
    rw [hleaf]
    exact h.leaf hold
  · rintro q octets ⟨va', page', hset, rfl, rfl⟩
    rcases PageMap.set_cases hset with ⟨-, rfl⟩ | ⟨hne, hold⟩
    · have hrole : w.role page.frame = some .data := h.role hpage
      refine ⟨hrole, fun i hi => ?_⟩
      exact (Mem.write_apply_add s.mem page.frame off bytes i).trans
        (Mem.write_apply_congr off bytes (h.octet hpage hi))
    · refine ⟨h.role hold, fun i hi => ?_⟩
      have hframe : page'.frame ≠ page.frame := fun heq =>
        hne (h.distinct hold hpage heq)
      have hout : page'.frame + i < page.frame ∨
          page.frame + frameSize ≤ page'.frame + i :=
        frame_disjoint page.aligned page'.aligned hframe
          ⟨by omega, by omega⟩
      rw [← h.octet hold hi]
      apply Mem.write_apply_outside
      omega
  · intro va₁ va₂ page₁ page₂ h₁ h₂ heq
    obtain ⟨_, hold₁, hframe₁, -⟩ := hback h₁
    obtain ⟨_, hold₂, hframe₂, -⟩ := hback h₂
    exact h.distinct hold₁ hold₂ (hframe₁.symm.trans (heq.trans hframe₂))

theorem Holds.walkToPhys_eq (h : Holds pages w s) (hspace : UserSpace space w s) :
    walkToPhys s.mem space va = some page.leaf.physAddr := by
  have hlow := ((isUserVa_iff va).mp (h.user hpage)).1
  rw [Space.walkToPhys_eq hspace (tableIndex_four_lt hlow), h.leaf hpage]
  rfl

theorem physOf_holds :
    Evolves (UserSpace space) False (Holds pages) (physOf space va)
      (fun phys w s => phys = page.frame ∧ Holds pages w s) := by
  intro w s hspace hholds
  have hphys : (physOf space va).eval s = (.ok page.frame, s) := by
    rw [eval_physOf, hholds.walkToPhys_eq hpage hspace, ← page.physAddr_leaf]
  rw [hphys]
  refine ⟨w, le_rfl, hspace, ?_, False.elim⟩
  rintro _ ⟨⟩
  exact ⟨rfl, hholds⟩

theorem copyToPhys_holds (hfit : off + bytes.length ≤ frameSize) (phys : ℕ) :
    Evolves (UserSpace space) False
      (fun w s => phys = page.frame ∧ Holds pages w s)
      (copyToPhys (phys + off) bytes : Prog Physical ProcessError Unit)
      (fun _ => Holds (pages.set va (page.overwrite off bytes))) := by
  rintro w s hspace ⟨rfl, hholds⟩
  exact ⟨w, le_rfl, Space.write_data hspace (hholds.role hpage) hfit,
    fun _ _ => hholds.overwrite hpage hfit, False.elim⟩

theorem copy_holds (hfit : off + bytes.length ≤ frameSize) :
    Evolves (UserSpace space) False (Holds pages)
      (do
        let phys ← physOf space va
        copyToPhys (phys + off) bytes)
      (fun _ => Holds (pages.set va (page.overwrite off bytes))) :=
  Evolves.bind (physOf_holds hpage) (copyToPhys_holds hpage hfit)

end OnePage

/-! ## Regions -/

/-- The pages of the region are user pages that were not there before. -/
def NewRegion (pages : PageMap) (leaves : List ℕ → Option PageTableEntry)
    (base : BitVec 64) (k : ℕ) : Prop :=
  ∀ i, i < k → isUserVa (pageVa base i) = true ∧
    pages (pageVa base i) = none ∧ leaves (pagePath (pageVa base i)) = none

theorem mapUserRegion_holds (base : BitVec 64) (k : ℕ) (write : Bool) :
    Evolves (UserSpace space) False
      (fun w s => Holds pages w s ∧ Extends leaves w)
      (mapUserRegion space base k write)
      (fun _ w s => ∃ pages' : PageMap,
        (pages ≤ pages' ∧ pages'.Region base k write (fun _ => 0) ∧
          NewRegion pages leaves base k) ∧
        Holds pages' w s ∧ Extends leaves w) := by
  refine Evolves.exitIf_bind (fun _ => not_false) fun _ => ?_
  have hloop : Evolves (UserSpace space) False _
      (Prog.foldRange k () fun i _ =>
        mapFreshPage space (pageVa base i) write) _ :=
    Evolves.foldRange (L := fun i _ w s => ∃ pages' : PageMap,
      (pages ≤ pages' ∧ pages'.Region base i write (fun _ => 0) ∧
        NewRegion pages leaves base i) ∧
      Holds pages' w s ∧ Extends leaves w) k () ?_
  · refine hloop.weaken (fun w s _ hpre => ⟨pages, ⟨le_rfl, ?_, ?_⟩, hpre⟩)
      fun _ _ _ hpost => hpost
    · intro i hi
      exact absurd hi (Nat.not_lt_zero i)
    · intro i hi
      exact absurd hi (Nat.not_lt_zero i)
  · intro i _ _
    refine Evolves.of_exists ?_
    rintro pages' ⟨hle, hregion, hnew⟩
    refine (mapFreshPage_holds (pageVa base i) write).weaken
      (fun _ _ _ hpre => hpre) ?_
    rintro _ w s ⟨⟨huser, hnone, hleaf⟩, ⟨page, hwrite, hzero, hholds⟩, hextends⟩
    have hle' : pages' ≤ pages'.set (pageVa base i) page :=
      PageMap.le_set page le_rfl hnone
    refine ⟨_, ⟨hle.trans hle', fun j hj => ?_, fun j hj => ?_⟩, hholds,
      hextends⟩
    · rcases Nat.lt_succ_iff_lt_or_eq.mp hj with hlt | rfl
      · exact hregion.mono hle' j hlt
      · refine ⟨page, PageMap.set_same .., hwrite, fun off _ => ?_⟩
        rw [hzero]
    · rcases Nat.lt_succ_iff_lt_or_eq.mp hj with hlt | rfl
      · exact hnew j hlt
      · exact ⟨huser, PageMap.eq_none_of_le hle hnone, hleaf⟩

theorem mapUserRegion_adds (base : BitVec 64) (k : ℕ) (write : Bool) :
    Evolves (UserSpace space) False (Holds pages)
      (mapUserRegion space base k write)
      (fun _ w s => ∃ pages' : PageMap,
        (pages ≤ pages' ∧ pages'.Region base k write (fun _ => 0) ∧
          ∀ i, i < k → pages (pageVa base i) = none) ∧ Holds pages' w s) := by
  have hregion : Evolves (UserSpace space) False
      (fun w s => Holds pages w s ∧ Extends (fun _ => none) w)
      (mapUserRegion space base k write) _ :=
    mapUserRegion_holds base k write
  refine hregion.weaken (fun _ _ _ hholds => ⟨hholds, ?_⟩) ?_
  · intro path e hleaf
    cases hleaf
  · rintro _ w s ⟨pages', ⟨hle, hpages, hnew⟩, hholds, -⟩
    exact ⟨pages', ⟨hle, hpages, fun i hi => (hnew i hi).2.1⟩, hholds⟩

theorem PageMap.Region.overwrite {base : BitVec 64} {k i : ℕ} {write : Bool}
    {image : Mem} (h : pages.Region base k write image)
    (huser : UserRegion base k) (hi : i < k)
    (hpage : pages (pageVa base i) = some page)
    (hfit : off + bytes.length ≤ frameSize) :
    (pages.set (pageVa base i) (page.overwrite off bytes)).Region base k write
      (image.write (i * pageSize + off) bytes) := by
  intro j hj
  obtain ⟨old, hold, hwrite, hoctets⟩ := h j hj
  by_cases hji : j = i
  · subst hji
    rw [hpage] at hold
    cases hold
    refine ⟨_, PageMap.set_same .., hwrite, fun o ho => ?_⟩
    exact (Mem.write_apply_congr off bytes (hoctets o ho)).trans
      (Mem.write_apply_add image (j * pageSize) off bytes o).symm
  · have hne : pageVa base j ≠ pageVa base i := by
      intro heq
      have hnat := congrArg BitVec.toNat heq
      rw [huser.toNat_pageVa hj, huser.toNat_pageVa hi] at hnat
      unfold pageSize at hnat
      omega
    refine ⟨old, ?_, hwrite, fun o ho => ?_⟩
    · rw [PageMap.set_of_ne pages _ hne]
      exact hold
    · rw [hoctets o ho, Mem.write_apply_outside]
      unfold pageSize
      unfold frameSize at hfit ho
      omega

end Steps

end IsoLightK0
