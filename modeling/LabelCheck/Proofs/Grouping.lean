import LabelCheck.Suite.Discovery
import Mathlib.Data.List.Lex
import Mathlib.Data.List.Perm.Basic
import Mathlib.Data.List.TakeWhile
import Mathlib.Data.String.Basic

/-!
# The order of a run of tests

Test documents are grouped by category, and requests choose among the groups. This module says what
comes out of both, in terms of the documents that were found: which of them are run, and in which
order.

* `Categories.Ordered`: the invariant of a grouping, which adding a file preserves;
* `Categories.files`: what is in the groups, which changes by the file that is added;
* `Stripped`, `Asked`: what a request means, without reference to the way it is worked off;
* `runOrder`: the documents that a run goes through;
* `runOrder_perm`, `pairwise_runOrder`: they are those that are asked for, in ascending order.

The groups are kept in order while they are filled, so both statements are carried along the list of
the documents found; the order within the groups is established once at the end.
-/

namespace LabelCheck

/-! ### The order of names -/

instance instLinearOrderByte : LinearOrder UInt8 where
  le_refl := UInt8.le_refl
  le_trans _ _ _ := UInt8.le_trans
  le_antisymm _ _ := UInt8.le_antisymm
  le_total := UInt8.le_total
  lt_iff_le_not_ge a b := by
    rw [UInt8.lt_iff_toNat_lt, UInt8.le_iff_toNat_le, UInt8.le_iff_toNat_le]
    exact lt_iff_le_not_ge
  toDecidableLE := inferInstance
  toDecidableLT := inferInstance
  toDecidableEq := inferInstance

/-- Names are ordered by their bytes. -/
instance : LinearOrder Files.RawText where
  le a b := a.bytes ≤ b.bytes
  le_refl a := le_refl a.bytes
  le_trans _ _ _ hab hbc := le_trans hab hbc
  le_antisymm _ _ hab hba := Files.RawText.ext (le_antisymm hab hba)
  le_total a b := le_total a.bytes b.bytes
  lt_iff_le_not_ge _ _ := lt_iff_le_not_ge (α := List UInt8)
  toDecidableLE a b := inferInstanceAs (Decidable (a.bytes ≤ b.bytes))
  toDecidableLT := inferInstance
  toDecidableEq := inferInstance

namespace Suite

open Files

/-! ### Groups of files -/

namespace Categories

/-- **A grouping in order.** The categories ascend strictly, and each of them has a file. -/
structure Ordered (c : Categories) : Prop where
  ascending : (c.map Prod.fst).Pairwise (· < ·)
  ne_nil : ∀ group ∈ c, group.2 ≠ []

/-- The files in the groups, each with the category of its group. -/
def files (c : Categories) : List (String × List Name) :=
  c.flatMap fun group => group.2.map fun file => (group.1, file)

theorem ordered_nil : Ordered [] := ⟨.nil, List.forall_mem_nil _⟩

theorem ordered_cons {name : String} {files : List (List Name)} {rest : Categories} :
    Ordered ((name, files) :: rest) ↔
      (∀ group ∈ rest, name < group.1) ∧ files ≠ [] ∧ Ordered rest := by
  constructor
  · rintro ⟨hascending, hne⟩
    rw [List.map_cons, List.pairwise_cons] at hascending
    refine ⟨?_, hne _ List.mem_cons_self, hascending.2, ?_⟩
    · intro group hgroup
      exact hascending.1 _ (List.mem_map_of_mem hgroup)
    · intro group hgroup
      exact hne group (List.mem_cons_of_mem _ hgroup)
  · rintro ⟨hlt, hne, hascending, hrest⟩
    refine ⟨?_, ?_⟩
    · rw [List.map_cons, List.pairwise_cons, List.forall_mem_map]
      exact ⟨hlt, hascending⟩
    · exact List.forall_mem_cons.mpr ⟨hne, hrest⟩

@[simp] theorem files_nil : files [] = [] := rfl

theorem files_cons (name : String) (group : List (List Name)) (rest : Categories) :
    files ((name, group) :: rest) = group.map (fun file => (name, file)) ++ files rest := rfl

/-- Choosing groups by their categories is choosing files by theirs. -/
theorem files_filter (p : String → Bool) (c : Categories) :
    files (c.filter fun group => p group.1) = c.files.filter fun file => p file.1 := by
  induction c with
  | nil => rfl
  | cons first rest ih =>
    obtain ⟨name, group⟩ := first
    have hgroup : (group.map fun file => (name, file)).filter (fun file => p file.1) =
        if p name then group.map fun file => (name, file) else [] := by
      cases hp : p name <;> simp [hp]
    rw [files_cons, List.filter_append, hgroup, ← ih, List.filter_cons]
    cases p name with
    | false => rfl
    | true => rfl

/-- The files group by group. -/
theorem map_snd_files (c : Categories) : c.files.map Prod.snd = c.flatMap Prod.snd := by
  rw [files, List.map_flatMap]
  simp only [List.map_map, Function.comp_def, List.map_id']

/-- A group behind an addition has the category of the file or is at the place of an old one. -/
theorem fst_of_mem_insert {category : String} {file : List Name} {c : Categories}
    {group : String × List (List Name)} (h : group ∈ c.insert category file) :
    group.1 = category ∨ ∃ old ∈ c, old.1 = group.1 := by
  induction c with
  | nil =>
    rw [List.mem_singleton.mp h]
    exact .inl rfl
  | cons first rest ih =>
    obtain ⟨other, files⟩ := first
    rw [insert] at h
    -- The file joins the first group, opens a group before it, or goes on to the rest.
    split at h
    · rcases List.mem_cons.mp h with rfl | h
      · exact .inr ⟨_, List.mem_cons_self, rfl⟩
      · exact .inr ⟨group, List.mem_cons_of_mem _ h, rfl⟩
    · split at h
      · rcases List.mem_cons.mp h with rfl | h
        · exact .inl rfl
        · exact .inr ⟨group, h, rfl⟩
      · rcases List.mem_cons.mp h with rfl | h
        · exact .inr ⟨_, List.mem_cons_self, rfl⟩
        · exact (ih h).imp_right fun ⟨old, hold, heq⟩ => ⟨old, List.mem_cons_of_mem _ hold, heq⟩

/-- **Adding a file keeps a grouping in order.** -/
theorem Ordered.insert {c : Categories} (hc : c.Ordered) (category : String)
    (file : List Name) : (c.insert category file).Ordered := by
  induction c with
  | nil => exact ordered_cons.mpr ⟨List.forall_mem_nil _, List.cons_ne_nil _ _, ordered_nil⟩
  | cons first rest ih =>
    obtain ⟨other, files⟩ := first
    obtain ⟨hlt, hne, hrest⟩ := ordered_cons.mp hc
    by_cases heq : category = other
    · rw [Categories.insert, if_pos heq]
      exact ordered_cons.mpr ⟨hlt, List.append_ne_nil_of_left_ne_nil hne _, hrest⟩
    · rw [Categories.insert, if_neg heq]
      by_cases hbefore : category < other
      · rw [if_pos hbefore]
        refine ordered_cons.mpr ⟨?_, List.cons_ne_nil _ _, hc⟩
        rw [List.forall_mem_cons]
        exact ⟨hbefore, fun group hgroup => hbefore.trans (hlt group hgroup)⟩
      · rw [if_neg hbefore]
        -- Whatever comes into the rest has a category behind the first one.
        have hbehind : other < category := lt_of_le_of_ne (not_lt.mp hbefore) (Ne.symm heq)
        refine ordered_cons.mpr ⟨?_, hne, ih hrest⟩
        intro group hgroup
        rcases fst_of_mem_insert hgroup with hnew | ⟨old, hold, hsame⟩
        · rw [hnew]
          exact hbehind
        · rw [← hsame]
          exact hlt old hold

/-- **Adding a file adds this file,** under its category. -/
theorem files_insert_perm (c : Categories) (category : String) (file : List Name) :
    (c.insert category file).files.Perm ((category, file) :: c.files) := by
  induction c with
  | nil => exact .refl _
  | cons first rest ih =>
    obtain ⟨other, group⟩ := first
    by_cases heq : category = other
    · rw [insert, if_pos heq, files_cons, files_cons, heq, List.map_append, List.append_assoc]
      exact List.perm_middle
    · rw [insert, if_neg heq]
      by_cases hbefore : category < other
      · rw [if_pos hbefore]
        exact .refl _
      · rw [if_neg hbefore, files_cons, files_cons]
        exact (ih.append_left _).trans List.perm_middle

/-- Add a document, given by the folders that lead to it and its own name. -/
def put (c : Categories) (document : List Name × Name) : Categories :=
  c.insert (category document.1) (document.1 ++ [document.2])

/-- The grouping of a list of documents is in order. -/
theorem Ordered.foldl_put {c : Categories} (hc : c.Ordered)
    (documents : List (List Name × Name)) : (documents.foldl put c).Ordered := by
  induction documents generalizing c with
  | nil => exact hc
  | cons document documents ih => exact ih (hc.insert _ _)

/-- The grouping of a list of documents has these documents. -/
theorem files_foldl_put_perm (documents : List (List Name × Name)) (c : Categories) :
    (documents.foldl put c).files.Perm
      (documents.map (fun d => (category d.1, d.1 ++ [d.2])) ++ c.files) := by
  induction documents generalizing c with
  | nil => exact .refl _
  | cons document documents ih =>
    have hfirst := files_insert_perm c (category document.1) (document.1 ++ [document.2])
    exact (ih (c.put document)).trans ((hfirst.append_left _).trans List.perm_middle)

end Categories

/-! ### The groups below a folder -/

/-- Of two files, the one whose names come first in the lexicographic order stands first. -/
theorem fileLe_iff {a b : List Name} : fileLe a b = true ↔ a ≤ b := by
  rw [fileLe, Bool.not_eq_true', ← Bool.not_eq_true, List.lex_eq_true_iff_lt, not_lt]

variable {α : Type}

/-- **A file below a folder,** by the names of the folders that lead to it and its own name. -/
inductive HasFile : Folder α → List Name → Name → Prop where
  | here {name content rest} : HasFile (.file name content rest) [] name
  | behindFile {other content rest below name} (h : HasFile rest below name) :
    HasFile (.file other content rest) below name
  | inside {other inner rest below name} (h : HasFile inner below name) :
    HasFile (.folder other inner rest) (other :: below) name
  | behindFolder {other inner rest below name} (h : HasFile rest below name) :
    HasFile (.folder other inner rest) below name

/-- The test documents below a folder as they are found, each by all names that lead to it. -/
def found (folder : Folder α) : List (List Name) :=
  (testFiles [] folder).map fun d => d.1 ++ [d.2]

/-- The category of a file, from all names that lead to it. -/
def categoryOf (names : List Name) : String := category names.dropLast

/-- The files that are found, with the names above the folder in front. -/
theorem mem_testFiles_iff {folder : Folder α} {above folders : List Name} {name : Name} :
    (folders, name) ∈ testFiles above folder ↔
      ∃ below, folders = above ++ below ∧ HasFile folder below name ∧ isTestName name = true := by
  induction folder generalizing above with
  | nil =>
    constructor
    · intro h
      cases h
    · rintro ⟨_, _, h, _⟩
      cases h
  | file other content rest ih =>
    have hrest : (∃ below, folders = above ++ below ∧ HasFile rest below name ∧
        isTestName name = true) →
        ∃ below, folders = above ++ below ∧ HasFile (.file other content rest) below name ∧
          isTestName name = true := by
      rintro ⟨below, hfolders, hfile, htest⟩
      exact ⟨below, hfolders, .behindFile hfile, htest⟩
    rw [testFiles]
    split
    · next hother =>
      rw [List.mem_cons, ih]
      constructor
      · rintro (heq | h)
        · cases heq
          exact ⟨[], (List.append_nil _).symm, .here, hother⟩
        · exact hrest h
      · rintro ⟨below, hfolders, hfile, htest⟩
        cases hfile with
        | here =>
          rw [List.append_nil] at hfolders
          exact .inl (by rw [hfolders])
        | behindFile hfile => exact .inr ⟨below, hfolders, hfile, htest⟩
    · next hother =>
      rw [ih]
      refine ⟨hrest, ?_⟩
      rintro ⟨below, hfolders, hfile, htest⟩
      cases hfile with
      | here => exact absurd htest hother
      | behindFile hfile => exact ⟨below, hfolders, hfile, htest⟩
  | folder other inner rest ihInner ihRest =>
    rw [testFiles, List.mem_append, ihInner, ihRest]
    constructor
    · rintro (⟨below, rfl, hfile, htest⟩ | ⟨below, rfl, hfile, htest⟩)
      · exact ⟨other :: below, List.append_assoc .., .inside hfile, htest⟩
      · exact ⟨below, rfl, .behindFolder hfile, htest⟩
    · rintro ⟨below, rfl, hfile, htest⟩
      cases hfile with
      | inside hfile => exact .inl ⟨_, (List.append_cons ..), hfile, htest⟩
      | behindFolder hfile => exact .inr ⟨below, rfl, hfile, htest⟩

/-- **The documents found are the files with the ending of a test document,** at all depths. -/
theorem mem_found_iff {folder : Folder α} {names : List Name} :
    names ∈ found folder ↔ ∃ below name, names = below ++ [name] ∧ HasFile folder below name ∧
      isTestName name = true := by
  rw [found, List.mem_map]
  constructor
  · rintro ⟨⟨folders, name⟩, hmem, rfl⟩
    obtain ⟨below, hfolders, hfile, htest⟩ := mem_testFiles_iff.mp hmem
    exact ⟨below, name, by rw [hfolders]; rfl, hfile, htest⟩
  · rintro ⟨below, name, rfl, hfile, htest⟩
    exact ⟨(below, name), mem_testFiles_iff.mpr ⟨below, rfl, hfile, htest⟩, rfl⟩

theorem discover_eq (folder : Folder α) :
    discover folder = ((testFiles [] folder).foldl Categories.put []).map fun group =>
      (group.1, group.2.mergeSort fileLe) := rfl

/-- The groups below a folder are in order. -/
theorem ordered_discover (folder : Folder α) : (discover folder).Ordered := by
  have hput := Categories.ordered_nil.foldl_put (testFiles [] folder)
  rw [discover_eq]
  constructor
  case ascending =>
    rw [List.map_map]
    exact hput.ascending
  case ne_nil =>
    rw [List.forall_mem_map]
    intro group hgroup hnil
    have hperm : List.Perm [] group.2 := hnil ▸ List.mergeSort_perm group.2 fileLe
    exact hput.ne_nil group hgroup hperm.nil_eq.symm

/-- They have the documents that were found. -/
theorem files_discover_perm (folder : Folder α) :
    (discover folder).files.Perm
      ((found folder).map fun names => (categoryOf names, names)) := by
  have hput := Categories.files_foldl_put_perm (testFiles [] folder) []
  -- Sorting the groups one by one moves files within their groups only.
  have hsorted : (discover folder).files.Perm
      ((testFiles [] folder).foldl Categories.put []).files := by
    rw [discover_eq, Categories.files, List.flatMap_map]
    exact List.Perm.flatMap_left _ fun group _ => (List.mergeSort_perm group.2 fileLe).map _
  have hnames : (found folder).map (fun names => (categoryOf names, names)) =
      (testFiles [] folder).map fun d => (category d.1, d.1 ++ [d.2]) := by
    rw [found, List.map_map]
    refine List.map_congr_left fun d _ => ?_
    rw [Function.comp_apply, categoryOf, List.dropLast_concat]
  rw [Categories.files_nil, List.append_nil, ← hnames] at hput
  exact hsorted.trans hput

/-- Every group has the files of its category, -/
theorem categoryOf_of_mem_discover {folder : Folder α} {group : String × List (List Name)}
    (hgroup : group ∈ discover folder) {names : List Name} (hnames : names ∈ group.2) :
    categoryOf names = group.1 := by
  have hmem : (group.1, names) ∈ (discover folder).files :=
    List.mem_flatMap_of_mem hgroup (List.mem_map_of_mem hnames)
  -- What stands in the groups was put there under its own category.
  obtain ⟨names', _, heq⟩ := List.mem_map.mp ((files_discover_perm folder).mem_iff.mp hmem)
  obtain ⟨hcategory, rfl⟩ := Prod.mk.inj heq
  exact hcategory

/-- in ascending order. -/
theorem pairwise_of_mem_discover {folder : Folder α} {group : String × List (List Name)}
    (hgroup : group ∈ discover folder) : group.2.Pairwise (· ≤ ·) := by
  rw [discover_eq] at hgroup
  obtain ⟨old, _, rfl⟩ := List.mem_map.mp hgroup
  have htrans : ∀ a b c : List Name,
      fileLe a b = true → fileLe b c = true → fileLe a c = true := by
    intro a b c hab hbc
    exact fileLe_iff.mpr ((fileLe_iff.mp hab).trans (fileLe_iff.mp hbc))
  have htotal : ∀ a b : List Name, (fileLe a b || fileLe b a) = true := by
    intro a b
    rw [Bool.or_eq_true, fileLe_iff, fileLe_iff]
    exact le_total a b
  exact (List.pairwise_mergeSort htrans htotal old.2).imp fileLe_iff.mp

/-! ### What requests ask for -/

/-- **A text without the slashes at its two ends.** -/
def Stripped (text stripped : String) : Prop :=
  ∃ k l, text.toList = List.replicate k '/' ++ stripped.toList ++ List.replicate l '/' ∧
    stripped.toList.head? ≠ some '/' ∧ stripped.toList.getLast? ≠ some '/'

/-- **Whether requests ask for a category:** there are none, or one of them names the category
itself or, up to a slash, a beginning of it. -/
def Asked (requests : List String) (category : String) : Prop :=
  requests = [] ∨ ∃ request ∈ requests, ∃ name, Stripped request name ∧
    (category = name ∨ ∃ rest, category = name ++ "/" ++ rest)

/-- Slashes in front of a text do not count. -/
theorem dropWhile_slash_append (k : Nat) (cs : List Char) :
    (List.replicate k '/' ++ cs).dropWhile (· == '/') = cs.dropWhile (· == '/') := by
  refine List.dropWhile_append_of_pos fun c hc => ?_
  rw [List.eq_of_mem_replicate hc]
  rfl

/-- A text that does not begin with a slash stays as it is. -/
theorem dropWhile_slash_eq_self {cs : List Char} (h : cs.head? ≠ some '/') :
    cs.dropWhile (· == '/') = cs := by
  cases cs with
  | nil => rfl
  | cons c cs =>
    refine List.dropWhile_cons_of_neg fun heq => h ?_
    rw [List.head?_cons, beq_iff_eq.mp heq]

theorem exists_replicate_append_dropWhile (cs : List Char) :
    ∃ k, cs = List.replicate k '/' ++ cs.dropWhile (· == '/') := by
  refine ⟨(cs.takeWhile (· == '/')).length, ?_⟩
  have hslashes : cs.takeWhile (· == '/') =
      List.replicate (cs.takeWhile (· == '/')).length '/' :=
    List.eq_replicate_iff.mpr
      ⟨rfl, fun c hc => beq_iff_eq.mp (List.mem_takeWhile_imp (p := (· == '/')) hc)⟩
  rw [← hslashes, List.takeWhile_append_dropWhile]

theorem head?_dropWhile_slash_ne (cs : List Char) :
    (cs.dropWhile (· == '/')).head? ≠ some '/' := by
  intro h
  have hnot := List.head?_dropWhile_not (· == '/') cs
  rw [h] at hnot
  cases hnot

theorem toList_trimSlashes (text : String) :
    (trimSlashes text).toList =
      ((text.toList.dropWhile (· == '/')).reverse.dropWhile (· == '/')).reverse := by
  simp [trimSlashes]

/-- A text has one form without slashes at its ends, and it is found. -/
theorem stripped_iff {text stripped : String} :
    Stripped text stripped ↔ stripped = trimSlashes text := by
  constructor
  · -- What is between the slashes has none at its ends, so trimming stops there from both sides.
    rintro ⟨k, l, htext, hhead, hlast⟩
    refine String.toList_injective ?_
    rw [toList_trimSlashes, htext, List.append_assoc, dropWhile_slash_append]
    by_cases hnil : stripped.toList = []
    · -- Nothing but slashes.
      have hall := dropWhile_slash_append l []
      rw [List.append_nil] at hall
      rw [hnil, List.nil_append, hall]
      rfl
    · have hfirst : (stripped.toList ++ List.replicate l '/').head? ≠ some '/' := by
        rw [List.head?_append_of_ne_nil _ hnil]
        exact hhead
      have hback : stripped.toList.reverse.head? ≠ some '/' := by
        rw [List.head?_reverse]
        exact hlast
      rw [dropWhile_slash_eq_self hfirst, List.reverse_append, List.reverse_replicate,
        dropWhile_slash_append, dropWhile_slash_eq_self hback, List.reverse_reverse]
  · -- The slashes that trimming drops in front and behind are the two runs.
    rintro rfl
    obtain ⟨k, hk⟩ := exists_replicate_append_dropWhile text.toList
    obtain ⟨l, hl⟩ :=
      exists_replicate_append_dropWhile (text.toList.dropWhile (· == '/')).reverse
    have hmiddle : text.toList.dropWhile (· == '/') =
        (trimSlashes text).toList ++ List.replicate l '/' := by
      have hreverse := congrArg List.reverse hl
      rw [List.reverse_reverse, List.reverse_append, List.reverse_replicate] at hreverse
      rw [toList_trimSlashes]
      exact hreverse
    refine ⟨k, l, ?_, ?_, ?_⟩
    · rw [List.append_assoc, ← hmiddle]
      exact hk
    · intro hhead
      have hfirst := head?_dropWhile_slash_ne text.toList
      rw [hmiddle, List.head?_append, hhead] at hfirst
      exact hfirst rfl
    · rw [toList_trimSlashes, List.getLast?_reverse]
      exact head?_dropWhile_slash_ne _

theorem asksFor_iff {name category : String} :
    asksFor name category = true ↔
      category = name ∨ ∃ rest, category = name ++ "/" ++ rest := by
  rw [asksFor, Bool.or_eq_true, beq_iff_eq, List.isPrefixOf_iff_prefix]
  refine or_congr_right ⟨?_, ?_⟩
  · rintro ⟨rest, hrest⟩
    refine ⟨String.ofList rest, String.toList_injective ?_⟩
    rw [← hrest]
    simp
  · rintro ⟨rest, rfl⟩
    refine ⟨rest.toList, ?_⟩
    simp

theorem asked_iff {requests : List String} {category : String} :
    Asked requests category ↔
      requests = [] ∨ ∃ request ∈ requests, asksFor (trimSlashes request) category = true := by
  unfold Asked
  refine or_congr_right (exists_congr fun request => and_congr_right fun _ => ?_)
  simp only [stripped_iff, exists_eq_left, asksFor_iff]

instance (requests : List String) (category : String) : Decidable (Asked requests category) :=
  decidable_of_iff _ asked_iff.symm

/-- A request for a category does not ask for another one whose name goes on without a slash. -/
example : Asked ["/a/b/"] "a/b/c" ∧ ¬ Asked ["a/b"] "a/bc" := by decide +kernel

/-! ### The groups that are chosen -/

/-- One request chooses the categories that it asks for, in addition to those chosen before. -/
theorem Selection.mem_chosen_take {all : List String} (s : Selection) (request : String)
    {category : String} (h : category ∈ all) :
    category ∈ (s.take all request).chosen ↔
      category ∈ s.chosen ∨ asksFor (trimSlashes request) category = true := by
  have hnew : category ∈ (all.filter fun category =>
      asksFor (trimSlashes request) category && !s.chosen.contains category) ↔
        asksFor (trimSlashes request) category = true ∧ category ∉ s.chosen := by
    simp [h]
  rw [Selection.take]
  split
  · next hempty =>
    -- What the request asks for has been chosen before.
    rw [List.isEmpty_iff.mp hempty] at hnew
    have hold : asksFor (trimSlashes request) category = true → category ∈ s.chosen := by
      intro hasks
      by_contra hnot
      exact List.not_mem_nil (hnew.mpr ⟨hasks, hnot⟩)
    exact (or_iff_left_of_imp hold).symm
  · rw [List.mem_append, hnew]
    by_cases hold : category ∈ s.chosen
    · simp [hold]
    · simp [hold]

/-- A list of requests chooses the categories that one of them asks for. -/
theorem Selection.mem_chosen_foldl {all : List String} (requests : List String) (s : Selection)
    {category : String} (h : category ∈ all) :
    category ∈ (requests.foldl (Selection.take all) s).chosen ↔
      category ∈ s.chosen ∨
        ∃ request ∈ requests, asksFor (trimSlashes request) category = true := by
  induction requests generalizing s with
  | nil => simp
  | cons request requests ih =>
    rw [List.foldl_cons, ih, mem_chosen_take s request h, or_assoc, List.exists_mem_cons_iff]

/-- **The chosen groups** are those of the categories that are asked for, each once. -/
theorem fst_select (all : Categories) (requests : List String) :
    (select all requests).1 = all.filter fun group => Asked requests group.1 := by
  by_cases hnone : requests = []
  · have hall : ∀ group ∈ all, decide (Asked requests group.1) = true := by
      intro group _
      exact decide_eq_true (.inl hnone)
    rw [List.filter_eq_self.mpr hall, select, if_pos (List.isEmpty_iff.mpr hnone)]
  · rw [select, if_neg fun h => hnone (List.isEmpty_iff.mp h)]
    refine List.filter_congr fun group hgroup => ?_
    have hchosen := Selection.mem_chosen_foldl requests {}
      (List.mem_map_of_mem (f := Prod.fst) hgroup)
    rw [Bool.eq_iff_iff, List.contains_iff_mem, decide_eq_true_iff, asked_iff, selectNames, hchosen]
    simp [hnone]

/-! ### The order of a run -/

/-- The documents below a folder that a run goes through, in its order. -/
def runOrder (folder : Folder α) (requests : List String) : List (List Name) :=
  (select (discover folder) requests).1.flatMap Prod.snd

/-- **Before:** by category, and within a category by the names that lead to the file. -/
def Before (a b : List Name) : Prop :=
  categoryOf a < categoryOf b ∨ categoryOf a = categoryOf b ∧ a ≤ b

/-- **The documents of a run** are those found whose category is asked for, each as often as it
was found. -/
theorem runOrder_perm (folder : Folder α) (requests : List String) :
    (runOrder folder requests).Perm
      ((found folder).filter fun names => Asked requests (categoryOf names)) := by
  have hfiles : runOrder folder requests =
      ((discover folder).files.filter fun file => Asked requests file.1).map Prod.snd := by
    rw [runOrder, fst_select, ← Categories.map_snd_files,
      Categories.files_filter fun category => Asked requests category]
  have hperm := ((files_discover_perm folder).filter fun file => Asked requests file.1).map Prod.snd
  rw [List.filter_map, List.map_map] at hperm
  rw [hfiles]
  simpa only [Function.comp_def, List.map_id'] using hperm

/-- **The documents of a run stand in ascending order.** -/
theorem pairwise_runOrder (folder : Folder α) (requests : List String) :
    (runOrder folder requests).Pairwise Before := by
  rw [runOrder, fst_select, List.pairwise_flatMap]
  -- Within a group the categories are equal and the names ascend; between groups the categories do.
  constructor
  · intro group hgroup
    have hmem := List.mem_of_mem_filter hgroup
    refine (pairwise_of_mem_discover hmem).imp_of_mem fun ha hb hle => .inr ⟨?_, hle⟩
    rw [categoryOf_of_mem_discover hmem ha, categoryOf_of_mem_discover hmem hb]
  · have hascending := List.pairwise_map.mp (ordered_discover folder).ascending
    refine (hascending.filter _).imp_of_mem fun hgroup hgroup' hlt a ha b hb => .inl ?_
    rw [categoryOf_of_mem_discover (List.mem_of_mem_filter hgroup) ha,
      categoryOf_of_mem_discover (List.mem_of_mem_filter hgroup') hb]
    exact hlt

/-- Nothing is run only if no group is chosen: every group has a document. -/
theorem runOrder_eq_nil_iff {folder : Folder α} {requests : List String} :
    runOrder folder requests = [] ↔ (select (discover folder) requests).1 = [] := by
  rw [runOrder, List.flatMap_eq_nil_iff]
  constructor
  · intro hempty
    by_contra hne
    obtain ⟨group, hgroup⟩ := List.exists_mem_of_ne_nil _ hne
    have hdiscover := hgroup
    rw [fst_select] at hdiscover
    exact (ordered_discover folder).ne_nil group (List.mem_of_mem_filter hdiscover)
      (hempty group hgroup)
  · intro hnil
    rw [hnil]
    exact List.forall_mem_nil _

end Suite

end LabelCheck
