import IsoLightK0.Aarch64.Mmu
import IsoLightK0.Support.Radix

/-!
# The tables of an address space on aarch64

The tables below the two roots form two trees that share no table.  Pool
tables are linked empty, so that no lookup changes before the leaf is stored,
and the leaf is found by the addresses of its page alone.
-/

namespace IsoLightK0.Aarch64

open Bytes Triples Worlds Radix

/-- How the processor reads a descriptor: above the lowest level, bit 1
distinguishes tables from blocks. -/
def format : Format PageTableEntry where
  present e := e.word.getLsbD 0
  leaf level e := level = 1 || !e.word.getLsbD 1
  next e := (e.word &&& paMask).toNat

/-- The indices of an address, with the levels counted from the lowest. -/
def index (va : BitVec 64) (k : ℕ) : ℕ := tableIndex va (4 - k)

theorem index_lt (va : BitVec 64) (k : ℕ) : index va k < tableEntries :=
  tableIndex_lt va (4 - k)

def leafOf (m : Mem) (space : ℕ) (high : Bool) (va : BitVec 64) :
    Option (ℕ × PageTableEntry) :=
  lookup format (entryAt m) (index va) 4 (root space high)

def ReachesIn (m : Mem) (space : ℕ) (high : Bool) (va : BitVec 64)
    (level t : ℕ) : Prop :=
  Reaches format (entryAt m) (index va) 4 (root space high) level t

/-- The two addresses lie in one page below one root. -/
def SamePage (high : Bool) (va : BitVec 64) (high' : Bool)
    (va' : BitVec 64) : Prop :=
  high' = high ∧ ∀ level, level < 4 → tableIndex va' level = tableIndex va level

theorem getLsbD_paMask (k : ℕ) :
    paMask.getLsbD k = decide (12 ≤ k ∧ k < 48) := by
  have hlow : ∀ i : Fin 64,
      paMask.getLsbD i = decide (12 ≤ i.val ∧ i.val < 48) := by
    decide
  by_cases hk : k < 64
  · exact hlow ⟨k, hk⟩
  · rw [BitVec.getLsbD_of_ge _ _ (by omega), eq_comm, decide_eq_false_iff_not]
    omega

section TableDesc

variable {p : ℕ}

theorem getLsbD_tableDesc (p : ℕ) {k : ℕ} (hk : k < 64)
    (hflag : ¬ (12 ≤ k ∧ k < 48)) :
    (tableDesc p).getLsbD k = decide (k < 2) := by
  have hlow : ∀ i : Fin 64, (descValid ||| descPage).getLsbD i =
      decide (i.val < 2) := by
    decide
  have hmask := getLsbD_paMask k
  rw [decide_eq_false hflag] at hmask
  rw [tableDesc, BitVec.getLsbD_or, BitVec.getLsbD_and, hmask, Bool.and_false,
    Bool.or_false]
  exact hlow ⟨k, hk⟩

theorem next_tableDesc (haligned : p % frameSize = 0) (hbound : p < 2 ^ 48) :
    format.next ⟨tableDesc p⟩ = p := by
  have hclear : (descValid ||| descPage) &&& paMask = 0 := by decide
  have hword : tableDesc p &&& paMask = BitVec.ofNat 64 p := by
    rw [tableDesc, BitVec.and_or_distrib_right, hclear, BitVec.and_assoc,
      BitVec.and_self, and_mask_of_aligned (fun k _ => getLsbD_paMask k)
        haligned hbound]
    exact BitVec.zero_or
  show (tableDesc p &&& paMask).toNat = p
  rw [hword, BitVec.toNat_ofNat, Nat.mod_eq_of_lt (by omega)]

theorem links_tableDesc (p : ℕ) {level : ℕ} (hlevel : 1 < level) :
    format.Links level ⟨tableDesc p⟩ := by
  constructor
  · exact getLsbD_tableDesc p (by omega) (by omega)
  · have hpage : (tableDesc p).getLsbD 1 = true :=
      getLsbD_tableDesc p (by omega) (by omega)
    show (decide (level = 1) || !(tableDesc p).getLsbD 1) = false
    rw [hpage, decide_eq_false (by omega)]
    rfl

end TableDesc

/-! ## The forest -/

def place (high : Bool) : List ℕ := [high.toNat]

/-- Tables are labelled with their places.  A valid descriptor above the lowest
level is one that leads to a table and says nothing else. -/
def descRule : Rule (List ℕ) PageTableEntry where
  holds w path i e := (treeRule format 5).holds w path i e ∧
    (format.present e = true → e.word.getLsbD 1 = true ∧
      (path.length < 4 → e.word = tableDesc (format.next e)))
  mono hle h := ⟨(treeRule format 5).mono hle h.1, h.2⟩

/-- The labelled tables are the roots and the pool tables in use. -/
structure Forest (space : ℕ) (w : Labelling (List ℕ)) (m : Mem) : Prop where
  aligned : space % frameSize = 0
  bound : space + spaceSize ≤ 2 ^ 48
  pool : poolNext m space ≤ poolTables
  roots : ∀ high, w.kind (root space high) = some (place high)
  used : ∀ {p path}, w.kind p = some path →
    ∃ k, k < 2 + poolNext m space ∧ p = space + k * frameSize
  labelled : Labelled descRule tableEntries w (entryAt m)

theorem descRule_unused (w : Labelling (List ℕ)) (path : List ℕ) (i : ℕ) :
    descRule.holds w path i .unused := by
  have habsent : format.present .unused = false := by decide
  refine ⟨fun _ hlinks => ?_, fun hpresent => ?_⟩
  · rw [Format.Links, habsent] at hlinks
    exact absurd hlinks.1 Bool.false_ne_true
  · rw [habsent] at hpresent
    cases hpresent

variable {w : Labelling (List ℕ)}

theorem descRule_link {path : List ℕ} {i p : ℕ}
    (hkind : w.kind p = some (i :: path)) (haligned : p % frameSize = 0)
    (hbound : p < 2 ^ 48) : descRule.holds w path i ⟨tableDesc p⟩ := by
  have hnext := next_tableDesc haligned hbound
  refine ⟨fun _ _ => ?_, fun _ => ⟨?_, fun _ => ?_⟩⟩
  · rw [hnext]
    exact hkind
  · exact getLsbD_tableDesc p (by omega) (by omega)
  · rw [hnext]

theorem descRule_page {path : List ℕ} {i : ℕ} {e : PageTableEntry}
    (hlength : path.length = 4) (hpage : e.word.getLsbD 1 = true) :
    descRule.holds w path i e := by
  refine ⟨fun _ hlinks => ?_, fun _ => ⟨hpage, fun hlt => ?_⟩⟩
  · rw [hlength, Format.Links] at hlinks
    exact Bool.noConfusion (show true = false from hlinks.2)
  · omega

namespace Forest

variable {space : ℕ} {w : Labelling (List ℕ)} {m : Mem} {high : Bool}
  {va : BitVec 64} {level t : ℕ}

theorem tree (h : Forest space w m) :
    Labelled (treeRule format 5) tableEntries w (entryAt m) :=
  fun p path i hp hi => (h.labelled p path i hp hi).1

variable {p : ℕ} {path : List ℕ}

theorem table_aligned (h : Forest space w m) (hp : w.kind p = some path) :
    p % frameSize = 0 := by
  obtain ⟨k, -, rfl⟩ := h.used hp
  have haligned := h.aligned
  unfold frameSize at haligned ⊢
  omega

theorem table_le (h : Forest space w m) (hp : w.kind p = some path) :
    p + frameSize ≤ poolNextAddr space := by
  obtain ⟨k, hk, rfl⟩ := h.used hp
  have hpool := h.pool
  unfold poolNextAddr frameSize
  omega

theorem kind_eq (h : Forest space w m)
    (hreach : ReachesIn m space high va level t) :
    w.kind t = some (route (index va) 4 level ++ place high) :=
  hreach.kind_eq (h.roots high) h.tree (index_lt va)

theorem through_iff (high high' : Bool) (va va' : BitVec 64) :
    Through 4 (place high) (place high') (index va) (index va') 0 ↔
      SamePage high va high' va' := by
  have hplace : ∀ high high' : Bool,
      place high' = place high ↔ high' = high := by
    decide
  constructor
  · rintro ⟨hbase, hindex⟩
    refine ⟨(hplace _ _).mp hbase, fun level hlevel => ?_⟩
    have hone := hindex (4 - level) (by omega) (by omega)
    unfold index at hone
    rw [Nat.sub_sub_self (by omega)] at hone
    exact hone
  · rintro ⟨hhigh, hindex⟩
    exact ⟨(hplace _ _).mpr hhigh, fun k hlow _ => hindex (4 - k) (by omega)⟩

theorem root_eq {high high' : Bool} (h : place high' = place high) :
    root space high' = root space high := by
  have hplace : ∀ high high' : Bool,
      place high' = place high → high' = high := by
    decide
  rw [hplace _ _ h]

/-! ### Stores -/

theorem poolNext_storeEntry (h : Forest space w m) {i : ℕ}
    (hp : w.kind p = some path) (hi : i < tableEntries) (e : PageTableEntry) :
    poolNext (storeEntry m p i e) space = poolNext m space := by
  have hle := h.table_le hp
  unfold poolNext storeEntry
  rw [Mem.read_write_disjoint]
  rw [length_wordToLe]
  unfold tableEntries at hi
  unfold frameSize at hle
  omega

theorem store (h : Forest space w m) {i : ℕ} (hp : w.kind p = some path)
    (hi : i < tableEntries) {e : PageTableEntry}
    (hnew : descRule.holds w path i e) :
    Forest space w (storeEntry m p i e) := by
  have hpool := h.poolNext_storeEntry hp hi e
  refine ⟨h.aligned, h.bound, ?_, h.roots, ?_, ?_⟩
  · rw [hpool]
    exact h.pool
  · intro q path' hq
    rw [hpool]
    exact h.used hq
  · refine h.labelled.put (t := p) (i := i) ?_ ?_
    · intro q path' j hq hj hne
      exact entryAt_storeEntry_of_ne _ _ (h.table_aligned hp)
        (h.table_aligned hq) hi hj hne
    · intro path' hp'
      rw [hp] at hp'
      cases hp'
      rw [entryAt_storeEntry_same]
      exact hnew

section Take

variable {p : ℕ} {m' : Mem}
  (h : Forest space w m) (htake : TakesTable space m p m')

include h htake

theorem taken_aligned : p % frameSize = 0 := by
  have haligned := h.aligned
  rw [htake.place]
  unfold poolTable
  unfold frameSize at haligned ⊢
  omega

theorem taken_lt :
    p < 2 ^ 48 := by
  have hbound := h.bound
  have havailable := htake.available
  rw [htake.place]
  unfold poolTable
  unfold spaceSize frameSize at *
  omega

theorem taken_unlabelled : w.kind p = none := by
  cases hkind : w.kind p with
  | none => rfl
  | some path =>
    obtain ⟨k, hk, hp⟩ := h.used hkind
    rw [htake.place] at hp
    unfold poolTable frameSize at hp
    omega

theorem entry_take {q i : ℕ} {path : List ℕ} (hq : w.kind q = some path)
    (hi : i < tableEntries) : entryAt m' q i = entryAt m q i := by
  have hne : q ≠ p := by
    rintro rfl
    rw [h.taken_unlabelled htake] at hq
    cases hq
  have hle := h.table_le hq
  refine entryAt_congr hi fun k hk => htake.outside k (by omega) ?_
  exact frame_disjoint (h.taken_aligned htake) (h.table_aligned hq) hne hk

/-- The table that was taken gets a place; it is empty. -/
theorem take (path : List ℕ) : Forest space (w.assign p path) m' := by
  have hle := Labelling.le_assign path (h.taken_unlabelled htake)
  refine ⟨h.aligned, h.bound, ?_, fun high => hle _ _ (h.roots high), ?_, ?_⟩
  · rw [htake.counted]
    exact htake.available
  · intro q path' hq
    rw [htake.counted]
    rcases Labelling.kind_assign_cases hq with ⟨rfl, -⟩ | ⟨-, hold⟩
    · exact ⟨2 + poolNext m space, by omega, htake.place⟩
    · obtain ⟨k, hk, hplace⟩ := h.used hold
      exact ⟨k, by omega, hplace⟩
  · refine (h.labelled.congr fun q path' i hq hi =>
      h.entry_take htake hq hi).assign (h.taken_unlabelled htake) ?_
    intro i hi
    rw [entryAt_erased hi htake.erased]
    exact descRule_unused _ path i

end Take

/-- A table that is linked is empty, so that nothing is found through it. -/
theorem link (h : Forest space w m) {m' : Mem} (hlevel : 0 < level)
    (hreach : ReachesIn m space high va (level + 1) t)
    (htake : TakesTable space m p m')
    (habsent : format.present (entryAt m t (index va (level + 1))) = false) :
    let m'' := storeEntry m' t (index va (level + 1)) ⟨tableDesc p⟩
    (∃ w', w ≤ w' ∧ Forest space w' m'') ∧
      (∀ high' va', leafOf m'' space high' va' = leafOf m space high' va') ∧
      ReachesIn m'' space high va level p := by
  intro m''
  have hindex := index_lt va (level + 1)
  have ht := h.kind_eq hreach
  have haligned := h.taken_aligned htake
  have hlinks := links_tableDesc p (Nat.succ_lt_succ hlevel)
  have hnext := next_tableDesc haligned (h.taken_lt htake)
  have hle := Labelling.le_assign (index va (level + 1) ::
    (route (index va) 4 (level + 1) ++ place high)) (h.taken_unlabelled htake)
  have hne : p ≠ t := by
    rintro rfl
    rw [h.taken_unlabelled htake] at ht
    cases ht
  have hentry : entryAt m'' t (index va (level + 1)) = ⟨tableDesc p⟩ :=
    entryAt_storeEntry_same ..
  have hsame : ∀ q path j, w.kind q = some path → j < tableEntries →
      ¬ (q = t ∧ j = index va (level + 1)) →
        entryAt m'' q j = entryAt m q j := by
    intro q path j hq hj hother
    rw [← h.entry_take htake hq hj]
    exact entryAt_storeEntry_of_ne _ _ (h.table_aligned ht)
      (h.table_aligned hq) hindex hj hother
  have hempty : ∀ j, j < tableEntries →
      format.present (entryAt m'' p j) = false := by
    intro j hj
    rw [entryAt_storeEntry_of_ne _ _ (h.table_aligned ht) haligned hindex hj
      (fun hboth => hne hboth.1), entryAt_erased hj htake.erased]
    decide
  refine ⟨⟨_, hle, (h.take htake _).store (hle _ _ ht) hindex
    (descRule_link (w.kind_assign_self p _) haligned (h.taken_lt htake))⟩,
    ?_, ?_⟩
  · intro high' va'
    refine lookup_link (h.roots high) (h.roots high') h.tree rfl root_eq
      (index_lt va) (index_lt va') hreach hsame habsent hlevel ?_ ?_
    · rw [hentry]
      exact hlinks
    · rw [hentry, hnext]
      exact hempty
  · have hdown := reaches_link (h.roots high) h.tree (index_lt va) hreach hsame
      habsent (by
        rw [hentry]
        exact hlinks)
    rw [hentry, hnext] at hdown
    exact hdown

end Forest

/-- The addresses of one page have gained a leaf, and no others have
changed. -/
def Gains (space : ℕ) (high : Bool) (va leaf : BitVec 64) (m m' : Mem) :
    Prop :=
  ∀ high' va', (SamePage high va high' va' →
      leafOf m space high' va' = none ∧
        leafOf m' space high' va' = some (1, ⟨leaf⟩)) ∧
    (¬ SamePage high va high' va' →
      leafOf m' space high' va' = leafOf m space high' va')

theorem Forest.storeLeaf {space : ℕ} {m : Mem} {high : Bool}
    {va leaf : BitVec 64} {t : ℕ} (h : Forest space w m)
    (hreach : ReachesIn m space high va 1 t)
    (habsent : format.present (entryAt m t (index va 1)) = false)
    (hvalid : leaf.getLsbD 0 = true) (hpage : leaf.getLsbD 1 = true) :
    let m' := storeEntry m t (index va 1) ⟨leaf⟩
    Forest space w m' ∧ Gains space high va leaf m m' := by
  intro m'
  have ht := h.kind_eq hreach
  have hentry : entryAt m' t (index va 1) = ⟨leaf⟩ := entryAt_storeEntry_same ..
  have hsame : ∀ q path j, w.kind q = some path → j < tableEntries →
      ¬ (q = t ∧ j = index va 1) → entryAt m' q j = entryAt m q j :=
    fun q _ j hq hj hother => entryAt_storeEntry_of_ne _ _
      (h.table_aligned ht) (h.table_aligned hq) (index_lt va 1) hj hother
  constructor
  · refine h.store ht (index_lt va 1) (descRule_page ?_ hpage)
    rw [List.length_append, length_route]
    rfl
  · intro high' va'
    have hfound := lookup_leaf (h.roots high) (h.roots high') h.tree rfl
      root_eq (index_lt va) (index_lt va') hreach hsame habsent
      (by rwa [hentry]) (by rw [hentry]; rfl)
    rw [through_iff, hentry] at hfound
    exact hfound

/-! ## Mapping -/

section MapDesc

variable {space : ℕ} {high : Bool} {va : BitVec 64}
  {leaves : Bool → BitVec 64 → Option (ℕ × PageTableEntry)}

/-- The tables form a forest in which the lookups give `leaves`. -/
def ForestWith (space : ℕ)
    (leaves : Bool → BitVec 64 → Option (ℕ × PageTableEntry))
    (w : Labelling (List ℕ)) (s : Machine) : Prop :=
  Forest space w s.mem ∧
    ∀ high va, leafOf s.mem space high va = leaves high va

theorem nextTable_forest {level : ℕ} (hlow : 0 < level) (t : ℕ) :
    Evolves (ForestWith space leaves) False
      (fun _ s => ReachesIn s.mem space high va (level + 1) t)
      (nextTable space va t (4 - (level + 1)))
      (fun next _ s => ReachesIn s.mem space high va level next) := by
  rintro w s ⟨hforest, hleaves⟩ hreach
  have ht := hforest.kind_eq hreach
  rcases nextTable_cases space va t (4 - (level + 1)) s with
    ⟨e, heval⟩ | ⟨hpresent, heval⟩ | ⟨habsent, p, m, s', htake, heval, hmem⟩
  · rw [heval]
    exact ⟨w, le_rfl, ⟨hforest, hleaves⟩, fun _ h => (nomatch h), False.elim⟩
  · rw [heval]
    refine ⟨w, le_rfl, ⟨hforest, hleaves⟩, ?_, False.elim⟩
    rintro _ ⟨⟩
    have hpage := ((hforest.labelled _ _ _ ht (index_lt va (level + 1))).2
      hpresent).1
    have hlinks : format.Links (level + 1)
        (entryAt s.mem t (index va (level + 1))) := by
      refine ⟨hpresent, ?_⟩
      show (decide (level + 1 = 1) || !_) = false
      rw [hpage, decide_eq_false (by omega)]
      rfl
    exact hreach.down hlinks
  · obtain ⟨⟨w', hle, hforest'⟩, hsame, hreach'⟩ :=
      hforest.link hlow hreach htake habsent
    rw [heval]
    refine ⟨w', hle, ?_, ?_, False.elim⟩
    · unfold ForestWith
      rw [hmem]
      refine ⟨hforest', fun high' va' => ?_⟩
      rw [← hleaves high' va']
      exact hsame high' va'
    · rintro _ ⟨⟩
      dsimp only
      rw [hmem]
      exact hreach'

/-- The loop of `map_desc` over the upper levels. -/
def walkTables (space : ℕ) (high : Bool) (va : BitVec 64) :
    Prog Machine MmuError ℕ := do
  let t₁ ← nextTable space va (root space high) 0
  let t₂ ← nextTable space va t₁ 1
  nextTable space va t₂ 2

theorem mapDesc_eq (space : ℕ) (high : Bool) (va leaf : BitVec 64) :
    mapDesc space high va leaf =
      (walkTables space high va >>= fun t => putLeaf space va t leaf) := by
  unfold mapDesc walkTables
  simp only [bind_assoc]

theorem walkTables_forest :
    Evolves (ForestWith space leaves) False
      (fun _ s => ReachesIn s.mem space high va 4 (root space high))
      (walkTables space high va)
      (fun t _ s => ReachesIn s.mem space high va 1 t) :=
  Evolves.bind (nextTable_forest (by omega) _) fun t₁ =>
    Evolves.bind (nextTable_forest (by omega) t₁) fun t₂ =>
      nextTable_forest (by omega) t₂

theorem mapDesc_cases {w : Labelling (List ℕ)} {s : Machine}
    (h : Forest space w s.mem) (high : Bool) (va : BitVec 64)
    {leaf : BitVec 64} (hvalid : leaf.getLsbD 0 = true)
    (hpage : leaf.getLsbD 1 = true) :
    let outcome := (mapDesc space high va leaf).eval s
    (∃ w', Forest space w' outcome.2.mem) ∧
      ((∃ e, outcome.1 = .error e ∧ ∀ high' va',
          leafOf outcome.2.mem space high' va' =
            leafOf s.mem space high' va') ∨
        outcome.1 = .ok () ∧
          Gains space high va leaf s.mem outcome.2.mem) := by
  dsimp only
  obtain ⟨w', -, ⟨hforest, hleaves⟩, hreach, -⟩ :=
    walkTables_forest w s ⟨h, fun _ _ => rfl⟩ Reaches.root
  rw [mapDesc_eq, Prog.eval_bind]
  rcases hwalk : (walkTables space high va).eval s with ⟨e | t, s₁⟩
  · rw [hwalk] at hforest hleaves
    exact ⟨⟨w', hforest⟩, .inl ⟨e, rfl, hleaves⟩⟩
  · rw [hwalk] at hforest hleaves hreach
    dsimp only at hforest hleaves hreach ⊢
    rcases putLeaf_cases space va t leaf s₁ with
      ⟨e, heval⟩ | ⟨habsent, s₂, heval, hmem⟩
    · rw [heval]
      exact ⟨⟨w', hforest⟩, .inl ⟨e, rfl, hleaves⟩⟩
    · obtain ⟨hforest', hgains⟩ :=
        hforest.storeLeaf (hreach t rfl) habsent hvalid hpage
      rw [heval]
      dsimp only
      rw [hmem]
      refine ⟨⟨w', hforest'⟩, .inr ⟨rfl, fun high' va' => ?_⟩⟩
      rw [← hleaves high' va']
      exact hgains high' va'

end MapDesc

section New

variable {space : ℕ} {m : Mem}

def newLabels (space : ℕ) : Labelling (List ℕ) where
  kind p :=
    if p = ttbr0Root space then some (place false)
    else if p = ttbr1Root space then some (place true)
    else none

theorem newLabels_cases {p : ℕ} {path : List ℕ}
    (h : (newLabels space).kind p = some path) :
    ∃ k, k < 2 ∧ p = space + k * frameSize := by
  rw [newLabels] at h
  dsimp only at h
  by_cases hlow : p = ttbr0Root space
  · exact ⟨0, by omega, by rw [hlow, ttbr0Root, Nat.zero_mul, Nat.add_zero]⟩
  · rw [if_neg hlow] at h
    by_cases hhigh : p = ttbr1Root space
    · exact ⟨1, by omega, by rw [hhigh, ttbr1Root, Nat.one_mul]⟩
    · rw [if_neg hhigh] at h
      cases h

theorem IsNew.poolNext_eq (h : IsNew space m) : poolNext m space = 0 := by
  have hzero : m.read (poolNextAddr space) 8 = List.replicate 8 0 := by
    apply List.ext_getElem
    · rw [Mem.length_read, List.length_replicate]
    · intro k hk _
      rw [Mem.length_read] at hk
      rw [Mem.getElem_read, List.getElem_replicate]
      apply h.zeroed
      · unfold poolNextAddr frameSize
        omega
      · unfold poolNextAddr spaceSize frameSize
        omega
  rw [poolNext, hzero]
  decide

theorem IsNew.entry_eq (h : IsNew space m) {p i : ℕ} {path : List ℕ}
    (hp : (newLabels space).kind p = some path) (hi : i < tableEntries) :
    entryAt m p i = .unused := by
  obtain ⟨k, hk, rfl⟩ := newLabels_cases hp
  refine entryAt_erased hi fun j hj => h.zeroed j ?_ ?_
  · omega
  · unfold spaceSize
    unfold frameSize at hj ⊢
    omega

theorem IsNew.forest (h : IsNew space m) :
    Forest space (newLabels space) m := by
  refine ⟨h.aligned, h.bound, ?_, ?_, ?_, ?_⟩
  · rw [h.poolNext_eq]
    exact Nat.zero_le _
  · intro high
    cases high with
    | false => exact if_pos rfl
    | true =>
      have hne : ttbr1Root space ≠ ttbr0Root space := by
        unfold ttbr1Root ttbr0Root frameSize
        omega
      show (if ttbr1Root space = ttbr0Root space then _ else _) = _
      rw [if_neg hne]
      exact if_pos rfl
  · intro p path hp
    obtain ⟨k, hk, hplace⟩ := newLabels_cases hp
    exact ⟨k, by omega, hplace⟩
  · intro p path i hp hi
    rw [h.entry_eq hp hi]
    exact descRule_unused _ path i

theorem IsNew.leafOf_eq (h : IsNew space m) (high : Bool) (va : BitVec 64) :
    leafOf m space high va = none := by
  refine lookup_of_absent ?_
  rw [h.entry_eq (h.forest.roots high) (index_lt va 4)]
  decide

end New

end IsoLightK0.Aarch64
