import IsoLightK0.Mmu.Large

/-!
# Labelled page tables in physical memory

Frames that are in use carry labels, and a rule ties the label of a table to
its entries.  The frames that the allocator hands out are not labelled yet, so
that no operation overwrites a table that it does not know about.

Each operation on the tables is specified for an arbitrary rule.  What an
invariant has to say about the operation is what the rule says about single
entries: an entry that leads to a table of the right label is allowed, an empty
table is allowed, and a leaf is allowed.
-/

namespace IsoLightK0

open Bytes Triples Worlds Radix PageTableFlags

/-- The labelled frames are aligned, in use, and obey the rule. -/
structure Layout {ρ : Type} (R : Rule ρ PageTableEntry) (w : Labelling ρ)
    (s : Physical) : Prop where
  aligned : ∀ {p r}, w.kind p = some r → p % frameSize = 0
  reserved : ∀ {p r}, w.kind p = some r → ¬ s.allocator.FreeAt p
  labelled : Labelled R tableEntries w (entryAt s.mem)

namespace Layout

variable {ρ : Type} {R : Rule ρ PageTableEntry} {w : Labelling ρ}
  {s s' : Physical} {p : ℕ} {r : ρ} (h : Layout R w s)

include h

theorem mem_takes {q : ℕ} (htake : TakesFrame s p s') (hq : w.kind q = some r) :
    ∀ i, q ≤ i ∧ i < q + frameSize → s'.mem i = s.mem i :=
  htake.mem_eq (h.aligned hq) (h.reserved hq)

theorem entry_takes {q i : ℕ} (htake : TakesFrame s p s')
    (hq : w.kind q = some r) (hi : i < tableEntries) :
    entryAt s'.mem q i = entryAt s.mem q i :=
  entryAt_congr hi (h.mem_takes htake hq)

theorem kind_eq_none (hfree : s.allocator.FreeAt p) :
    w.kind p = none := by
  cases hkind : w.kind p with
  | none => rfl
  | some r => exact (h.reserved hkind hfree).elim

theorem takes (htake : TakesFrame s p s') :
    Layout R w s' where
  aligned := h.aligned
  reserved hq hp := h.reserved hq ((htake.marks _).mp hp).1
  labelled := h.labelled.congr fun _ _ _ hq hi => h.entry_takes htake hq hi

theorem assign (hnone : w.kind p = none) (haligned : p % frameSize = 0)
    (hp : ¬ s.allocator.FreeAt p)
    (hnew : ∀ i, i < tableEntries →
      R.holds (w.assign p r) r i (entryAt s.mem p i)) :
    Layout R (w.assign p r) s where
  aligned hq := by
    rcases Labelling.kind_assign_cases hq with ⟨rfl, -⟩ | ⟨-, hold⟩
    · exact haligned
    · exact h.aligned hold
  reserved hq := by
    rcases Labelling.kind_assign_cases hq with ⟨rfl, -⟩ | ⟨-, hold⟩
    · exact hp
    · exact h.reserved hold
  labelled := h.labelled.assign hnone hnew

theorem takes_assign (htake : TakesFrame s p s')
    (hempty : ∀ i, R.holds (w.assign p r) r i .unused) :
    Layout R (w.assign p r) s' := by
  refine (h.takes htake).assign (h.kind_eq_none htake.free) htake.free.1 ?_ ?_
  · intro hp
    exact ((htake.marks p).mp hp).2 rfl
  · intro i hi
    rw [entryAt_erased hi htake.erased]
    exact hempty i

theorem store {t i : ℕ} {e : PageTableEntry} (ht : w.kind t = some r)
    (hi : i < tableEntries) (hnew : R.holds w r i e) :
    Layout R w { s with mem := storeEntry s.mem t i e } where
  aligned := h.aligned
  reserved := h.reserved
  labelled := by
    refine h.labelled.put (t := t) (i := i) ?_ ?_
    · intro p r' j hp hj hne
      exact entryAt_storeEntry_of_ne _ _ (h.aligned ht) (h.aligned hp) hi hj hne
    · intro r' ht'
      rw [ht] at ht'
      cases ht'
      dsimp only
      rw [entryAt_storeEntry_same]
      exact hnew

theorem overwrite (hp : w.kind p = some r) (hany : ∀ i e, R.holds w r i e)
    {m : Mem} (hout : ∀ i, i < p ∨ p + frameSize ≤ i → m i = s.mem i) :
    Layout R w { s with mem := m } where
  aligned := h.aligned
  reserved := h.reserved
  labelled := by
    intro q r' i hq hi
    by_cases heq : q = p
    · rw [heq, hp] at hq
      cases hq
      exact hany _ _
    · have hentry : entryAt m q i = entryAt s.mem q i :=
        entryAt_congr hi fun k hk =>
          hout k (frame_disjoint (h.aligned hp) (h.aligned hq) heq hk)
      dsimp only
      rw [hentry]
      exact h.labelled q r' i hq hi

end Layout

/-! ## What the operations keep -/

/-- The rule lets an entry `i` of a table labelled `r` lead to a table
labelled `r'`, and lets that table be empty. -/
structure Descends {ρ : Type} (R : Rule ρ PageTableEntry) (r : ρ) (i : ℕ)
    (r' : ρ) : Prop where
  follow : ∀ {w e}, R.holds w r i e → e.isPresent = true →
    e.flags.contains hugePage = false → w.kind e.physAddr.toNat = some r'
  link : ∀ {w p}, w.kind p = some r' → p % frameSize = 0 → p < 2 ^ 32 →
    R.holds w r i (.encode (BitVec.ofNat 64 p) mid)
  empty : ∀ {w} j, R.holds w r' j .unused

section Operations

variable {ρ : Type} {R : Rule ρ PageTableEntry} {r : ρ} {e : PageTableEntry}
  {ε : Type}

theorem allocOrGetTable_layout {t i : ℕ} {r' : ρ} (hi : i < tableEntries)
    (hdown : Descends R r i r') :
    Evolves (Layout R) False (fun w _ => w.kind t = some r)
      (allocOrGetTable t i) (fun t' w _ => w.kind t' = some r') := by
  intro w s hlayout ht
  rcases allocOrGetTable_cases s t i with
    ⟨e, heval, -⟩ | ⟨hpresent, hhuge, heval⟩ | ⟨-, p, s', htake, heval⟩
  · rw [heval]
    exact ⟨w, le_rfl, hlayout, fun _ h => (nomatch h), False.elim⟩
  · rw [heval]
    refine ⟨w, le_rfl, hlayout, ?_, False.elim⟩
    rintro _ ⟨⟩
    exact hdown.follow (hlayout.labelled _ _ _ ht hi) hpresent hhuge
  · rw [heval]
    have hle : w ≤ w.assign p r' :=
      Labelling.le_assign r' (hlayout.kind_eq_none htake.free)
    have hkind := w.kind_assign_self p r'
    refine ⟨w.assign p r', hle, ?_, ?_, False.elim⟩
    · exact (hlayout.takes_assign htake hdown.empty).store (hle _ _ ht) hi
        (hdown.link hkind htake.free.1 htake.bound)
    · rintro _ ⟨⟩
      exact hkind

/-- The labels on the way down are given level by level. -/
theorem walkDown_layout {va : BitVec 64} {bottom : ℕ} (label : ℕ → ρ)
    (steps table : ℕ)
    (hdown : ∀ level, bottom ≤ level → level < bottom + steps →
      Descends R (label (level + 1)) (tableIndex va (level + 1))
        (label level)) :
    Evolves (Layout R) False
      (fun w _ => w.kind table = some (label (bottom + steps)))
      (walkDown va bottom steps table)
      (fun t w _ => w.kind t = some (label bottom)) := by
  induction steps generalizing table with
  | zero => exact Evolves.pure table fun _ _ h => h
  | succ steps ih =>
    refine Evolves.bind (allocOrGetTable_layout (tableIndex_lt va _)
      (hdown (bottom + steps) (by omega) (by omega))) fun next => ?_
    exact ih next fun level hlow hhigh => hdown level hlow (by omega)

theorem putLeaf_layout {t i : ℕ} (hi : i < tableEntries)
    {F : Labelling ρ → Prop} (hleaf : ∀ w, F w → R.holds w r i e) :
    Evolves (Layout R) False (fun w _ => w.kind t = some r ∧ F w)
      (putLeaf t i (.ok e)) (fun _ _ _ => True) := by
  rintro w s hlayout ⟨ht, hF⟩
  rcases putLeaf_cases s t i (.ok e) with
    ⟨_, heval, -⟩ | ⟨-, _, ⟨⟩, heval⟩
  · rw [heval]
    exact ⟨w, le_rfl, hlayout, fun _ h => (nomatch h), False.elim⟩
  · rw [heval]
    exact ⟨w, le_rfl, hlayout.store ht hi (hleaf w hF), fun _ _ => trivial,
      False.elim⟩

/-- A call keeps a rule that allows its tables and its leaf. -/
theorem SpaceCall.program_layout (call : SpaceCall) {pml4 : ℕ} (label : ℕ → ρ)
    (hdown : ∀ level, call.level ≤ level → level < 4 →
      Descends R (label (level + 1)) (tableIndex call.virtAddr (level + 1))
        (label level))
    {F : Labelling ρ → Prop} (hF : Monotone F)
    (hleaf : ∀ w, F w → R.holds w (label call.level)
      (tableIndex call.virtAddr call.level) call.leaf) :
    Evolves (Layout R) False (fun w _ => w.kind pml4 = some (label 4) ∧ F w)
      (call.program pml4) (fun _ _ _ => True) := by
  have hmap := Evolves.bind (Evolves.frame hF (walkDown_layout label
    (4 - call.level) pml4 fun level hlow hhigh =>
      hdown level hlow (by omega))) fun t =>
    putLeaf_layout (t := t) (tableIndex_lt call.virtAddr call.level) hleaf
  rw [call.level_bounds.2] at hmap
  intro w s hlayout hpre
  rcases call.eval_program pml4 s with ⟨e, heval⟩ | ⟨-, -, heval⟩
  · rw [heval]
    exact ⟨w, le_rfl, hlayout, fun _ h => (nomatch h), False.elim⟩
  · rw [heval]
    exact hmap w s hlayout hpre

theorem allocErased_layout (e : ε) (hempty : ∀ w i, R.holds w r i .unused) :
    Evolves (Layout R) False (fun _ _ => True) (allocErased e)
      (fun p w _ => w.kind p = some r ∧ p % frameSize = 0 ∧ p < 2 ^ 32) := by
  intro w s hlayout _
  rcases eval_allocErased e s with ⟨heval, -⟩ | ⟨p, s', heval, htake⟩
  · rw [heval]
    exact ⟨w, le_rfl, hlayout, fun _ h => (nomatch h), False.elim⟩
  · rw [heval]
    refine ⟨w.assign p r,
      Labelling.le_assign r (hlayout.kind_eq_none htake.free),
      hlayout.takes_assign htake (hempty _), ?_, False.elim⟩
    rintro _ ⟨⟩
    exact ⟨w.kind_assign_self p r, htake.free.1, htake.bound⟩

/-- A copy stays inside a frame whose label says nothing about its
contents. -/
theorem copyToPhys_layout {A : Labelling ρ → Prop} {p off : ℕ}
    {bytes : List Byte} (hfit : off + bytes.length ≤ frameSize)
    (hany : ∀ w, A w → ∃ r, w.kind p = some r ∧ ∀ i e, R.holds w r i e) :
    Evolves (Layout R) False (fun w _ => A w)
      (copyToPhys (p + off) bytes : Prog Physical ε Unit)
      (fun _ w _ => A w) := by
  intro w s hlayout hA
  obtain ⟨r, hp, hrule⟩ := hany w hA
  refine ⟨w, le_rfl, ?_, fun _ _ => hA, False.elim⟩
  refine hlayout.overwrite hp hrule fun i hi => ?_
  apply Mem.write_apply_outside
  omega

/-- The upper half of one table is copied to another whose rule allows it. -/
theorem inheritKernelMappings_layout {pml4 source : ℕ} {r' : ρ}
    (hcopy : ∀ w i e, 256 ≤ i → i < tableEntries → R.holds w r' i e →
      R.holds w r i e) :
    Evolves (Layout R) False
      (fun w _ => w.kind pml4 = some r ∧ w.kind source = some r')
      (inheritKernelMappings pml4 source : Prog Physical ε Unit)
      (fun _ _ _ => True) := by
  rintro w s hlayout ⟨hpml4, hsource⟩
  rw [eval_inheritKernelMappings]
  refine ⟨w, le_rfl, ?_, fun _ _ => trivial, False.elim⟩
  refine List.foldlRecOn (motive := fun m => Layout R w { s with mem := m }) _ _
    hlayout fun m h i hi => ?_
  rw [List.mem_range'_1] at hi
  have hindex : i < tableEntries := hi.2
  exact h.store hpml4 hindex (hcopy w i _ hi.1 hindex
    (h.labelled _ _ _ hsource hindex))

end Operations

end IsoLightK0
