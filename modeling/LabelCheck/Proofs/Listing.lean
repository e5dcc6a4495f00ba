import LabelCheck.Proofs.TestRun
import Mathlib.Data.List.Nodup

/-!
# Listings in any order

A folder lists its entries in some order, which says nothing about them. This module shows that the
test documents below a folder are found whatever the orders are, each of them once, and that the
groups are the same.

* `Relisted`: the same entries in another order, in a folder and in those below it;
* `Folder.Distinct`: no two entries of a folder have the same name;
* `Categories.eq_of_files_perm`: a grouping in order is determined by its files;
* `Discovers`: what the groups have to be, in terms of the files below the folder;
* `Tallied`: a listing of the categories shows as many documents as a run prints results, heading
  by heading;
* `discover_of_relisted`: all of this, for every folder and every order;
* `discover_unlisted`: what is printed of a result need not be one line.

Nothing but the names in a folder is looked at. A folder that is named like a document is no
document, and two folders can have the same category, since a backslash counts as a slash and bytes
that are no text are shown as others that are none. A document whose own name is no text is not
found.
-/

namespace LabelCheck.Files

variable {α : Type}

/-! ### The order of entries -/

/-- An entry of a folder. -/
inductive Entry (α : Type) where
  | file (name : Name) (content : α)
  | folder (name : Name) (inner : Folder α)

namespace Folder

/-- A folder with one more entry, which is listed first. -/
def cons : Entry α → Folder α → Folder α
  | .file name content, rest => file name content rest
  | .folder name inner, rest => folder name inner rest

/-- The folder that lists the given entries. -/
def ofEntries (entries : List (Entry α)) : Folder α := entries.foldr cons nil

/-- The names of the entries of a folder. -/
def names : Folder α → List Name
  | nil => []
  | file name _ rest => name :: rest.names
  | folder name _ rest => name :: rest.names

/-- **Distinct names.** No two entries of a folder have the same name, and so in the folders below
it. -/
def Distinct : Folder α → Prop
  | nil => True
  | file name _ rest => name ∉ rest.names ∧ rest.Distinct
  | folder name inner rest => name ∉ rest.names ∧ inner.Distinct ∧ rest.Distinct

end Folder

/-- **Another listing.** Both folders have the same entries, and those that are folders are listings
of each other again. The rules are those by which a list is rearranged, and one to go into a
folder. -/
inductive Relisted : Folder α → Folder α → Prop where
  | nil : Relisted .nil .nil
  | file {name content rest rest'} (h : Relisted rest rest') :
    Relisted (.file name content rest) (.file name content rest')
  | folder {name inner inner' rest rest'} (hinner : Relisted inner inner')
    (h : Relisted rest rest') : Relisted (.folder name inner rest) (.folder name inner' rest')
  | swap (a b : Entry α) (rest : Folder α) :
    Relisted (.cons a (.cons b rest)) (.cons b (.cons a rest))
  | trans {f g h : Folder α} (hfg : Relisted f g) (hgh : Relisted g h) : Relisted f h

theorem Relisted.refl (f : Folder α) : Relisted f f := by
  induction f with
  | nil => exact .nil
  | file name content rest ih => exact .file ih
  | folder name inner rest ihInner ihRest => exact .folder ihInner ihRest

theorem Relisted.cons {f g : Folder α} (h : Relisted f g) (a : Entry α) :
    Relisted (.cons a f) (.cons a g) := by
  cases a with
  | file name content => exact .file h
  | folder name inner => exact .folder (.refl inner) h

/-- Every order in which the entries can stand is one in which they can be listed. -/
theorem relisted_of_perm {entries entries' : List (Entry α)} (h : entries.Perm entries') :
    Relisted (.ofEntries entries) (.ofEntries entries') := by
  induction h with
  | nil => exact .nil
  | cons a _ ih => exact ih.cons a
  | swap a b rest => exact .swap b a (.ofEntries rest)
  | trans _ _ ih ih' => exact .trans ih ih'

end LabelCheck.Files

namespace LabelCheck.Suite

open CommandLine Files

variable {α : Type}

/-! ### What is found does not depend on the order -/

/-- What is found in a folder is what is found in its first entry and in the others. -/
theorem testFiles_cons (above : List Name) (a : Entry α) (rest : Folder α) :
    testFiles above (.cons a rest) = testFiles above (.cons a .nil) ++ testFiles above rest := by
  cases a with
  | file name content =>
    show testFiles above (.file name content rest) =
      testFiles above (.file name content .nil) ++ testFiles above rest
    rw [testFiles, testFiles]
    by_cases htest : isTestName name = true
    · rw [if_pos htest, if_pos htest]
      rfl
    · rw [if_neg htest, if_neg htest]
      rfl
  | folder name inner =>
    show testFiles above (.folder name inner rest) =
      testFiles above (.folder name inner .nil) ++ testFiles above rest
    rw [testFiles, testFiles, testFiles, List.append_nil]

/-- **In every order the same documents are found.** -/
theorem testFiles_perm_of_relisted {f g : Folder α} (h : Relisted f g) (above : List Name) :
    (testFiles above f).Perm (testFiles above g) := by
  induction h generalizing above with
  | nil => exact .refl _
  | @file name content rest rest' _ ih =>
    have hfile := testFiles_cons above (.file name content) rest
    have hfile' := testFiles_cons above (.file name content) rest'
    show (testFiles above (.cons (.file name content) rest)).Perm
      (testFiles above (.cons (.file name content) rest'))
    rw [hfile, hfile']
    exact (ih above).append_left _
  | folder _ _ ihInner ihRest =>
    rw [testFiles, testFiles]
    exact (ihInner _).append (ihRest above)
  | swap a b rest =>
    have htwo (c d : Entry α) : testFiles above (.cons c (.cons d rest)) =
        testFiles above (.cons c .nil) ++
          (testFiles above (.cons d .nil) ++ testFiles above rest) := by
      rw [testFiles_cons, testFiles_cons above d rest]
    -- What is found in the two entries changes places as a whole.
    rw [htwo a b, htwo b a]
    exact List.perm_append_comm_assoc _ _ _
  | trans _ _ ih ih' => exact (ih above).trans (ih' above)

theorem found_perm_of_relisted {f g : Folder α} (h : Relisted f g) : (found f).Perm (found g) :=
  (testFiles_perm_of_relisted h []).map _

/-! ### A grouping by its files -/

namespace Categories

/-- The first category stands before those of all files. -/
theorem le_of_mem_files {name : String} {group : List (List Name)} {rest : Categories}
    (h : Ordered ((name, group) :: rest)) {file : String × List Name}
    (hfile : file ∈ files ((name, group) :: rest)) : name ≤ file.1 := by
  rw [files_cons, List.mem_append] at hfile
  -- The first group has the first category, and all others come behind it.
  rcases hfile with hfile | hfile
  · obtain ⟨_, _, rfl⟩ := List.mem_map.mp hfile
    exact le_refl name
  · obtain ⟨later, hlater, hmem⟩ := List.mem_flatMap.mp hfile
    obtain ⟨_, _, rfl⟩ := List.mem_map.mp hmem
    exact le_of_lt ((ordered_cons.mp h).1 later hlater)

/-- The files of the first category are those of the first group. -/
theorem filter_files_cons {name : String} {group : List (List Name)} {rest : Categories}
    (h : Ordered ((name, group) :: rest)) :
    (files ((name, group) :: rest)).filter (fun file => file.1 == name) =
      group.map fun file => (name, file) := by
  have hgroup : (group.map fun file => (name, file)).filter (fun file => file.1 == name) =
      group.map fun file => (name, file) := by
    rw [List.filter_eq_self, List.forall_mem_map]
    intro file _
    exact beq_self_eq_true name
  have hrest : (files rest).filter (fun file => file.1 == name) = [] := by
    rw [List.filter_eq_nil_iff]
    intro file hfile heq
    obtain ⟨later, hlater, hmem⟩ := List.mem_flatMap.mp hfile
    obtain ⟨_, _, rfl⟩ := List.mem_map.mp hmem
    exact absurd (beq_iff_eq.mp heq) ((ordered_cons.mp h).1 later hlater).ne'
  rw [files_cons, List.filter_append, hgroup, hrest, List.append_nil]

/-- A grouping in order has a file of its first category. -/
theorem exists_mem_files {name : String} {group : List (List Name)} {rest : Categories}
    (h : Ordered ((name, group) :: rest)) :
    ∃ file ∈ files ((name, group) :: rest), file.1 = name := by
  obtain ⟨file, hfile⟩ := List.exists_mem_of_ne_nil group (ordered_cons.mp h).2.1
  refine ⟨(name, file), ?_, rfl⟩
  rw [files_cons]
  exact List.mem_append_left _ (List.mem_map_of_mem hfile)

/-- **A grouping in order is determined by its files,** if the groups are in order as well. Two such
groupings begin with the same category, the smallest one, and have the same group for it; what
remains has the same files again. -/
theorem eq_of_files_perm {c d : Categories} (hc : c.Ordered) (hd : d.Ordered)
    (hsorted : ∀ group ∈ c, group.2.Pairwise (· ≤ ·))
    (hsorted' : ∀ group ∈ d, group.2.Pairwise (· ≤ ·)) (h : c.files.Perm d.files) : c = d := by
  induction c generalizing d with
  | nil =>
    cases d with
    | nil => rfl
    | cons first rest =>
      obtain ⟨file, hfile, _⟩ := exists_mem_files hd
      exact absurd (h.mem_iff.mpr hfile) List.not_mem_nil
  | cons first rest ih =>
    obtain ⟨name, group⟩ := first
    cases d with
    | nil =>
      obtain ⟨file, hfile, _⟩ := exists_mem_files hc
      exact absurd (h.mem_iff.mp hfile) List.not_mem_nil
    | cons first' rest' =>
      obtain ⟨name', group'⟩ := first'
      -- Each of the two first categories is that of a file of the other grouping.
      obtain ⟨file, hfile, hcategory⟩ := exists_mem_files hc
      obtain ⟨file', hfile', hcategory'⟩ := exists_mem_files hd
      have hle : name' ≤ name := hcategory ▸ le_of_mem_files hd (h.mem_iff.mp hfile)
      have hle' : name ≤ name' := hcategory' ▸ le_of_mem_files hc (h.mem_iff.mpr hfile')
      obtain rfl : name = name' := le_antisymm hle' hle
      -- The files of this category are the same, and both groups are sorted.
      have hgroups := h.filter fun file => file.1 == name
      rw [filter_files_cons hc, filter_files_cons hd] at hgroups
      have hperm : group.Perm group' := by
        have hnames := hgroups.map Prod.snd
        rw [List.map_map, List.map_map] at hnames
        simpa only [Function.comp_def, List.map_id'] using hnames
      obtain rfl : group = group' := hperm.eq_of_pairwise (fun _ _ _ _ => le_antisymm)
        (hsorted _ List.mem_cons_self) (hsorted' _ List.mem_cons_self)
      rw [files_cons, files_cons, List.perm_append_left_iff] at h
      rw [ih (ordered_cons.mp hc).2.2 (ordered_cons.mp hd).2.2
        (fun later hlater => hsorted later (List.mem_cons_of_mem _ hlater))
        (fun later hlater => hsorted' later (List.mem_cons_of_mem _ hlater)) h]

end Categories

/-- **In every order the groups are the same.** -/
theorem discover_eq_of_relisted {f g : Folder α} (h : Relisted f g) : discover f = discover g := by
  refine Categories.eq_of_files_perm (ordered_discover f) (ordered_discover g)
    (fun _ => pairwise_of_mem_discover) (fun _ => pairwise_of_mem_discover) ?_
  have hfound := (found_perm_of_relisted h).map fun names => (categoryOf names, names)
  exact (files_discover_perm f).trans (hfound.trans (files_discover_perm g).symm)

/-! ### Every document is found once -/

/-- The way to a file begins with the name of an entry. -/
theorem HasFile.exists_mem_names {folder : Folder α} {below : List Name} {name : Name}
    (h : HasFile folder below name) :
    ∃ first ∈ folder.names, (below ++ [name]).head? = some first := by
  induction h with
  | here => exact ⟨_, List.mem_cons_self, rfl⟩
  | behindFile _ ih =>
    obtain ⟨first, hfirst, hhead⟩ := ih
    exact ⟨first, List.mem_cons_of_mem _ hfirst, hhead⟩
  | inside _ _ => exact ⟨_, List.mem_cons_self, rfl⟩
  | behindFolder _ ih =>
    obtain ⟨first, hfirst, hhead⟩ := ih
    exact ⟨first, List.mem_cons_of_mem _ hfirst, hhead⟩

/-- A name that no entry has begins no way. -/
theorem HasFile.head_ne {folder : Folder α} {below : List Name} {name other : Name}
    (h : HasFile folder below name) (hother : other ∉ folder.names) :
    (below ++ [name]).head? ≠ some other := by
  obtain ⟨first, hfirst, hhead⟩ := h.exists_mem_names
  intro heq
  rw [hhead] at heq
  exact hother (Option.some.inj heq ▸ hfirst)

/-- **No document is found twice** if the names in every folder are distinct. -/
theorem nodup_testFiles {folder : Folder α} (h : folder.Distinct) (above : List Name) :
    (testFiles above folder).Nodup := by
  induction folder generalizing above with
  | nil => exact List.nodup_nil
  | file name content rest ih =>
    obtain ⟨hname, hrest⟩ := h
    rw [testFiles]
    by_cases htest : isTestName name = true
    · rw [if_pos htest, List.nodup_cons]
      refine ⟨?_, ih hrest above⟩
      -- The same document behind it would need an entry of the same name.
      intro hmem
      obtain ⟨below, habove, hfile, _⟩ := mem_testFiles_iff.mp hmem
      obtain rfl : below = [] := List.self_eq_append_right.mp habove
      exact hfile.head_ne hname rfl
    · rw [if_neg htest]
      exact ih hrest above
  | folder name inner rest ihInner ihRest =>
    obtain ⟨hname, hinner, hrest⟩ := h
    rw [testFiles, List.nodup_append]
    refine ⟨ihInner hinner _, ihRest hrest above, ?_⟩
    -- A way that goes into the folder begins with its name, and no other way does.
    rintro ⟨folders, file⟩ hmem _ hmem' rfl
    obtain ⟨below, hbelow, _, _⟩ := mem_testFiles_iff.mp hmem
    obtain ⟨below', hbelow', hfile, _⟩ := mem_testFiles_iff.mp hmem'
    have heq : below' = name :: below := by
      rw [hbelow, List.append_assoc] at hbelow'
      exact (List.append_cancel_left hbelow').symm
    exact hfile.head_ne hname (by rw [heq]; rfl)

theorem nodup_found {folder : Folder α} (h : folder.Distinct) : (found folder).Nodup := by
  refine (nodup_testFiles h []).map ?_
  rintro ⟨folders, name⟩ ⟨folders', name'⟩ heq
  obtain ⟨hfolders, hname⟩ := List.append_inj' heq rfl
  exact Prod.ext hfolders (List.cons.inj hname).1

/-! ### What the groups are -/

/-- A backslash counts as a slash. -/
def slashed (text : String) : String := text.map fun c => if c = '\\' then '/' else c

theorem map_intercalate {β γ : Type} (f : β → γ) (separator : List β) (parts : List (List β)) :
    (separator.intercalate parts).map f =
      (separator.map f).intercalate (parts.map (List.map f)) := by
  induction parts with
  | nil => rfl
  | cons first rest ih =>
    cases rest with
    | nil => simp only [List.map_cons, List.map_nil, List.intercalate_singleton]
    | cons second rest =>
      simp only [List.map_cons] at ih
      simp only [List.intercalate_cons_cons, List.map_append, List.map_cons, ih]

/-- The way from a folder to a file, as it is shown, with slashes between the names. -/
def way (below : List Name) : String := slashed (String.intercalate "/" (below.map RawText.shown))

/-- **The category of a file** is the way to it. -/
theorem category_eq_way (folders : List Name) : category folders = way folders := by
  refine String.toList_injective ?_
  rw [category, way, slashed, String.toList_map, String.toList_intercalate,
    String.toList_intercalate, map_intercalate, List.map_map, List.map_map, List.map_map]
  congr 1
  refine List.map_congr_left fun name _ => ?_
  simp only [Function.comp_apply, String.toList_map]

theorem isTestName_iff {name : Name} :
    isTestName name = true ↔ ∃ stem : String, name = .ofText (stem ++ ".test.toml") := by
  unfold isTestName
  cases htext : name.text? with
  | none =>
    refine ⟨nofun, ?_⟩
    rintro ⟨stem, rfl⟩
    rw [RawText.text?_ofText] at htext
    cases htext
  | some text =>
    obtain rfl := RawText.text?_eq_some_iff.mp htext
    simp only [isSuffixOf_testEnding_iff]
    exact exists_congr fun stem => ⟨congrArg _, RawText.ofText_injective⟩

/-- **A test document below a folder,** by the folders that lead to it and its own name, which is a
text with the ending of test documents. -/
def HasTest (folder : Folder α) (below : List Name) (name : Name) : Prop :=
  HasFile folder below name ∧ ∃ stem : String, name = .ofText (stem ++ ".test.toml")

/-- **Discovery.** `c` are the test documents below a folder in groups. -/
structure Discovers (folder : Folder α) (c : Categories) : Prop where
  /-- In the group of a category stand the documents whose way from the folder is that category. -/
  mem_iff : ∀ category names, (∃ files, (category, files) ∈ c ∧ names ∈ files) ↔
    ∃ below name, names = below ++ [name] ∧ HasTest folder below name ∧
      category = way below
  /-- Every document stands in one group, and there once. -/
  existsUnique : ∀ below name, HasTest folder below name →
    ∃! group, group ∈ c ∧ below ++ [name] ∈ group.2
  count_eq_one : ∀ below name, HasTest folder below name →
    (c.flatMap Prod.snd).count (below ++ [name]) = 1
  /-- A category has one group, and no group is empty. -/
  ascending : (c.map Prod.fst).Pairwise (· < ·)
  ne_nil : ∀ group ∈ c, group.2 ≠ []
  /-- The documents of a group ascend. -/
  sorted : ∀ group ∈ c, group.2.Pairwise (· < ·)

section

variable {folder : Folder α}

theorem mem_found_iff_hasTest {names : List Name} :
    names ∈ found folder ↔ ∃ below name, names = below ++ [name] ∧ HasTest folder below name := by
  rw [mem_found_iff]
  simp only [HasTest, isTestName_iff]

theorem mem_discover_iff {category : String} {names : List Name} :
    (∃ files, (category, files) ∈ discover folder ∧ names ∈ files) ↔
      names ∈ found folder ∧ category = categoryOf names := by
  have hmem : (∃ files, (category, files) ∈ discover folder ∧ names ∈ files) ↔
      (category, names) ∈ (discover folder).files := by
    rw [Categories.files, List.mem_flatMap]
    constructor
    · rintro ⟨files, hgroup, hnames⟩
      exact ⟨_, hgroup, List.mem_map_of_mem hnames⟩
    · rintro ⟨⟨category', files⟩, hgroup, hnames⟩
      obtain ⟨_, hnames, heq⟩ := List.mem_map.mp hnames
      cases heq
      exact ⟨files, hgroup, hnames⟩
  rw [hmem, (files_discover_perm folder).mem_iff, List.mem_map]
  constructor
  · rintro ⟨names', hfound, heq⟩
    cases heq
    exact ⟨hfound, rfl⟩
  · rintro ⟨hfound, rfl⟩
    exact ⟨names, hfound, rfl⟩

/-- Two groups of the same category are the same. -/
theorem Categories.Ordered.eq_of_fst_eq {c : Categories} (hc : c.Ordered)
    {group group' : String × List (List Name)} (h : group ∈ c) (h' : group' ∈ c)
    (heq : group.1 = group'.1) : group = group' := by
  have hnodup : (c.map Prod.fst).Nodup := hc.ascending.imp fun hlt => hlt.ne
  exact List.inj_on_of_nodup_map hnodup h h' heq

theorem nodup_flatMap_discover (h : folder.Distinct) :
    ((discover folder).flatMap Prod.snd).Nodup := by
  have hperm := (files_discover_perm folder).map Prod.snd
  rw [Categories.map_snd_files, List.map_map] at hperm
  refine hperm.nodup_iff.mpr ?_
  simpa only [Function.comp_def, List.map_id'] using nodup_found h

/-- The groups below a folder are as they have to be. -/
theorem discovers_discover (h : folder.Distinct) : Discovers folder (discover folder) := by
  have hcategory : ∀ (below : List Name) (name : Name),
      categoryOf (below ++ [name]) = way below := by
    intro below name
    rw [categoryOf, List.dropLast_concat, category_eq_way]
  have hgroup : ∀ below name, HasTest folder below name →
      ∃ files, (categoryOf (below ++ [name]), files) ∈ discover folder ∧
        below ++ [name] ∈ files := by
    intro below name htest
    exact mem_discover_iff.mpr ⟨mem_found_iff_hasTest.mpr ⟨below, name, rfl, htest⟩, rfl⟩
  refine
    { mem_iff := ?mem_iff
      existsUnique := ?existsUnique
      count_eq_one := ?count_eq_one
      ascending := (ordered_discover folder).ascending
      ne_nil := (ordered_discover folder).ne_nil
      sorted := ?sorted }
  case mem_iff =>
    intro category names
    rw [mem_discover_iff, mem_found_iff_hasTest]
    constructor
    · rintro ⟨⟨below, name, rfl, htest⟩, rfl⟩
      exact ⟨below, name, rfl, htest, hcategory below name⟩
    · rintro ⟨below, name, rfl, htest, rfl⟩
      exact ⟨⟨below, name, rfl, htest⟩, (hcategory below name).symm⟩
  case existsUnique =>
    intro below name htest
    obtain ⟨files, hmem, hfile⟩ := hgroup below name htest
    refine ⟨_, ⟨hmem, hfile⟩, ?_⟩
    -- Another group with the document would be one of the same category.
    rintro group ⟨hgroup, hnames⟩
    refine (ordered_discover folder).eq_of_fst_eq hgroup hmem ?_
    exact (categoryOf_of_mem_discover hgroup hnames).symm
  case count_eq_one =>
    intro below name htest
    obtain ⟨files, hmem, hfile⟩ := hgroup below name htest
    exact List.count_eq_one_of_mem (nodup_flatMap_discover h) (List.mem_flatMap_of_mem hmem hfile)
  case sorted =>
    intro group hgroup
    have hnodup : group.2.Nodup :=
      (List.nodup_flatMap.mp (nodup_flatMap_discover h)).1 group hgroup
    exact (pairwise_of_mem_discover hgroup).imp₂ (fun _ _ hle hne => lt_of_le_of_ne hle hne) hnodup

end

/-! ### The counts of a listing and of a run -/

/-- The categories as they are shown, each with the number of its documents. -/
def tally (c : Categories) : List (String × Nat) :=
  c.map fun group => (headingOf group.1, group.2.length)

/-- The words ask for a listing of the categories below the folder at a path. -/
structure AsksListing (files : Access Id) (words : List String) (path : Path)
    (folder : Folder Unit) : Prop where
  line : ∃ manner a, TestLine words manner a ∧ a.listCategories = true ∧ a.path = path
  isFile : files.isFile path = false
  list : files.list path = folder

/-- The words ask for a run of all documents below the folder at a path. -/
structure AsksRun (files : Access Id) (words : List String) (manner : Manner) (path : Path)
    (folder : Folder Unit) : Prop where
  line : ∃ a, TestLine words manner a ∧ a.listCategories = false ∧ a.categories = [] ∧
    a.path = path
  isFile : files.isFile path = false
  list : files.list path = folder

/-- **The counts agree.** The first output is that of a listing of the categories below the folder
at `path`, the second that of a run of all documents below the folder at `runPath`. Without
documents both say so; else the run prints as many results under each heading as are listed. -/
inductive Tallied (log : Logger) (manner : Manner) (path runPath : Path) :
    List (String × Nat) → Output → Output → Prop where
  | none : Tallied log manner path runPath []
      { exit := 0, stderr := unlines ["no .test.toml files found in " ++ path.shown] }
      { exit := 1, stderr := "no .test.toml files found in " ++ runPath.shown ++ "\n" }
  | some {counts : List (String × Nat)} {groups : List (String × List TestResult)}
    {pieces : List Piece} {out : Output} (hcounts : counts ≠ [])
    (hgroups : groups.map (fun g => (g.1, g.2.length)) = counts)
    (hprints : PrintsRun manner.noColor [] (groups.map fun g => (some g.1, g.2)) pieces)
    (hstdout : out.stdout = "") (hstderr : out.stderr = written log manner pieces) :
    Tallied log manner path runPath counts
      { exit := 0
        stderr := unlines
          ("available categories:" :: counts.map fun (title, n) => s!"  {title} ({n} tests)") } out

section

variable {files : Access Id} {words : List String} {manner : Manner} {path : Path}
  {folder : Folder Unit}

theorem AsksListing.runWith_eq (h : AsksListing files words path folder) (draw : Drawing)
    (log : Logger) :
    runWith draw log files words = { exit := 0, stderr := unlines (
      if (discover folder).isEmpty then ["no .test.toml files found in " ++ path.shown]
      else "available categories:" ::
        (tally (discover folder)).map fun (title, n) => s!"  {title} ({n} tests)") } := by
  obtain ⟨⟨manner, a, hwords, hlist, rfl⟩, hfile, rfl⟩ := h
  have hlines : categoryLines files a.path =
      if (discover (files.list a.path)).isEmpty then
        ["no .test.toml files found in " ++ a.path.shown]
      else "available categories:" ::
        (tally (discover (files.list a.path))).map fun (title, n) => s!"  {title} ({n} tests)" := by
    unfold categoryLines tally
    simp only [hfile, List.map_map, categoryTitle_eq]
    rfl
  unfold runWith
  rw [Request.parse_eq_test_iff.mpr hwords]
  simp only [hlist, if_true]
  show ({ exit := 0, stderr := unlines (categoryLines files a.path) } : Output) = _
  rw [hlines]

/-- A run below a folder is the plan for it with the results of its documents. -/
theorem AsksRun.runWith_eq (h : AsksRun files words manner path folder) (draw : Drawing)
    (log : Logger) :
    runWith draw log files words =
      ((folderPlan path [] folder).transcript manner.noColor path
        ((runOrder folder []).map fun names => runFile files (names.foldl Path.join path))).output
          log manner := by
  obtain ⟨⟨a, hwords, hlist, hnone, rfl⟩, hfile, rfl⟩ := h
  have hresults : (runOrder (files.list a.path) []).mapM
      (fun names => runFile files (names.foldl Path.join a.path)) =
        (runOrder (files.list a.path) []).map fun names =>
          runFile files (names.foldl Path.join a.path) :=
    List.idRun_mapM
  rw [runWith_eq_of_testLine draw log files hwords hlist, hnone, ← hresults]
  simp only [hfile]
  rfl

/-- **What is listed and what is run agree in their counts,** if the same was found. -/
theorem tallied_of_discover_eq {files' : Access Id} {words' : List String} {runPath : Path}
    {folder' : Folder Unit} (draw : Drawing) (log : Logger)
    (h : AsksListing files words path folder)
    (h' : AsksRun files' words' manner runPath folder') (heq : discover folder' = discover folder) :
    Tallied log manner path runPath (tally (discover folder)) (runWith draw log files words)
      (runWith draw log files' words') := by
  rw [h.runWith_eq, h'.runWith_eq, ← heq]
  have hall : runOrder folder' [] = (discover folder').flatMap Prod.snd := rfl
  have hplan : folderPlan runPath [] folder' =
      if (discover folder').isEmpty then none
      else some ((discover folder').map (groupOf runPath), []) := rfl
  rw [hall, hplan]
  cases discover folder' with
  | nil =>
    have hwritten : written log manner [.line ("no .test.toml files found in " ++ runPath.shown)] =
        "no .test.toml files found in " ++ runPath.shown ++ "\n" := String.append_empty
    show Tallied log manner path runPath [] _
      { exit := 1
        stderr := written log manner [.line ("no .test.toml files found in " ++ runPath.shown)] }
    rw [hwritten]
    exact .none
  | cons first rest =>
    -- The results are handed out in the order of the documents, to each group as many as it has.
    let results := ((first :: rest).flatMap Prod.snd).map fun names =>
      runFile files' (names.foldl Path.join runPath)
    have hlength : results.length = ((first :: rest).flatMap Prod.snd).length := List.length_map _
    let s : Summary := ⟨shareOut ((first :: rest).map (groupOf runPath)) results⟩
    have hprints := s.prints_pieces manner.noColor []
    rw [← map_pairOut runPath hlength] at hprints
    let groups := (pairOut (first :: rest) results).map fun g => (headingOf g.1, g.2.map Prod.snd)
    have hgroups : groups.map (fun g => (some g.1, g.2)) =
        (pairOut (first :: rest) results).map fun g => (some (headingOf g.1), g.2.map Prod.snd) :=
      List.map_map
    refine .some (List.cons_ne_nil _ _) ?_ (hgroups ▸ hprints) rfl rfl
    have hcounts := map_length_pairOut hlength
    have htitles := congrArg (List.map fun g : String × Nat => (headingOf g.1, g.2)) hcounts
    simpa only [groups, tally, List.map_map, Function.comp_def, List.length_map] using htitles

end

/-- **Discovery does not depend on the order of listings.** Of two listings of a folder the groups
are the same, and they are as they have to be: every test document stands in one group and there
once. So the counts of a listing of the categories agree with those of a run of all documents, even
if the folders list their entries in another order to each of them. -/
theorem discover_of_relisted {folder folder' : Folder Unit} (hdistinct : folder.Distinct)
    (h : Relisted folder folder') :
    discover folder' = discover folder ∧ Discovers folder (discover folder) ∧
      ∀ (draw : Drawing) (log : Logger) (files files' : Access Id) (words words' : List String)
        (manner : Manner) (path runPath : Path),
        AsksListing files words path folder → AsksRun files' words' manner runPath folder' →
        Tallied log manner path runPath (tally (discover folder)) (runWith draw log files words)
          (runWith draw log files' words') := by
  have heq : discover folder' = discover folder := (discover_eq_of_relisted h).symm
  refine ⟨heq, discovers_discover hdistinct, ?_⟩
  intro draw log files files' words words' manner path runPath hlisting hrun
  exact tallied_of_discover_eq draw log hlisting hrun heq

/-- A folder with a document that has nothing but the ending, a folder that is named like a
document, and two folders with the same category. -/
def deceptive : Folder Unit :=
  .file ".test.toml" () <| .folder "x.test.toml" (.file "y.test.toml" () .nil) <|
  .folder "a" (.folder "b" (.file "z.test.toml" () (.file "z.toml" () .nil)) .nil) <|
  .folder "a\\b" (.file "y.test.toml" () .nil) .nil

/-- The same folder in another order, also further in. -/
def deceptive' : Folder Unit :=
  .folder "a\\b" (.file "y.test.toml" () .nil) <|
  .folder "x.test.toml" (.file "y.test.toml" () .nil) <| .file ".test.toml" () <|
  .folder "a" (.folder "b" (.file "z.toml" () (.file "z.test.toml" () .nil)) .nil) .nil

/-- Files below which nothing can be read. -/
def unreadable (folder : Folder Unit) : Access Id where
  read _ := .error .notFound
  isFile _ := false
  list _ := folder

theorem discover_of_relisted_deceptive :
    deceptive.Distinct ∧ Relisted deceptive deceptive' ∧
      AsksListing (unreadable deceptive) ["test", "--list-categories", "t"] "t" deceptive ∧
      AsksRun (unreadable deceptive') ["--no-color", "test", "t"] { noColor := true } "t"
        deceptive' ∧
      discover deceptive' = discover deceptive ∧ Discovers deceptive (discover deceptive) ∧
      Tallied silentLogger { noColor := true } "t" "t" (tally (discover deceptive))
        (runWith plainDrawing silentLogger (unreadable deceptive)
          ["test", "--list-categories", "t"])
        (runWith plainDrawing silentLogger (unreadable deceptive')
          ["--no-color", "test", "t"]) := by
  have hdistinct : deceptive.Distinct := by
    simp [deceptive, Folder.Distinct, Folder.names]
  have hrelisted : Relisted deceptive deceptive' := by
    let tests : Entry Unit := .folder "x.test.toml" (.file "y.test.toml" () .nil)
    let bare : Entry Unit := .file ".test.toml" ()
    let outer (inner : Folder Unit) : Entry Unit := .folder "a" (.folder "b" inner .nil)
    let written : Entry Unit := .folder "a\\b" (.file "y.test.toml" () .nil)
    let swapped : Entry Unit := outer (.file "z.toml" () (.file "z.test.toml" () .nil))
    -- Inside the innermost folder two files change places, at the outside the entries do.
    have hinner : Relisted (.file "z.test.toml" () (.file "z.toml" () .nil))
        (.file "z.toml" () (.file "z.test.toml" () .nil)) :=
      .swap (.file "z.test.toml" ()) (.file "z.toml" ()) .nil
    have houter : Relisted deceptive (.ofEntries [bare, tests, swapped, written]) :=
      .file (.folder (.refl _) (.folder (.folder hinner .nil) (.refl _)))
    have hlast : List.Perm [bare, tests, swapped, written] [written, bare, tests, swapped] :=
      show ([bare, tests, swapped] ++ [written]).Perm ([written] ++ [bare, tests, swapped]) from
        List.perm_append_comm
    have hperm : List.Perm [bare, tests, swapped, written] [written, tests, bare, swapped] :=
      hlast.trans (.cons written (.swap tests bare [swapped]))
    exact houter.trans (relisted_of_perm hperm)
  have hlisting : AsksListing (unreadable deceptive) ["test", "--list-categories", "t"] "t"
      deceptive :=
    ⟨⟨_, { path := "t", listCategories := true }, Request.parse_eq_test_iff.mp rfl, rfl, rfl⟩, rfl,
      rfl⟩
  have hrun : AsksRun (unreadable deceptive') ["--no-color", "test", "t"] { noColor := true } "t"
      deceptive' :=
    ⟨⟨{ path := "t" }, Request.parse_eq_test_iff.mp rfl, rfl, rfl, rfl⟩, rfl, rfl⟩
  obtain ⟨heq, hdiscovers, htallied⟩ := discover_of_relisted hdistinct hrelisted
  have hcounts := htallied plainDrawing silentLogger _ _ _ _ _ _ _ hlisting hrun
  exact ⟨hdistinct, hrelisted, hlisting, hrun, heq, hdiscovers, hcounts⟩

/-! ### Names that are no texts, and descriptions of several lines -/

/-- A name of bytes that ends as test documents do and is no text. -/
def rawName : Name := ⟨0xFF :: (RawText.ofText ".test.toml").bytes⟩

/-- A folder with one test in it. -/
def described : Folder Unit := .folder "a" (.file "x.test.toml" () .nil) .nil

/-- The test, with a description of two lines. -/
def describedFiles : Access Id where
  read path :=
    if path = "t/a/x.test.toml" then
      .ok ("description=\"one\\n  PASS  two\"\n[procedure]\nname='p'\nbody.kind='loop'")
    else .error .notFound
  isFile _ := false
  list _ := described

/-- The groups below it. -/
def describedGroups : Categories := [("a", [["a", "x.test.toml"]])]

theorem discover_described : discover described = describedGroups := by
  have hput : (testFiles [] described).foldl Categories.put [] = describedGroups := by
    decide +kernel
  rw [discover_eq, hput, describedGroups, List.map_singleton, List.mergeSort_singleton]

theorem discover_rawName : discover (.file rawName () .nil : Folder Unit) = [] := by
  have hname : isTestName rawName = false := by decide +kernel
  rw [discover_eq, testFiles, if_neg (by rw [hname]; exact Bool.false_ne_true)]
  rfl

/-- **What ends as a test document need not be one, and what is printed of one need not be one
line.** A name that is no text is in no group, whatever its bytes at the end. And under a heading
that is listed with one test, two lines tell of a test that passed. -/
theorem discover_unlisted :
    (HasFile (.file rawName () .nil : Folder Unit) [] rawName ∧
      (RawText.ofText ".test.toml").bytes <:+ rawName.bytes ∧
      discover (.file rawName () .nil : Folder Unit) = []) ∧
    (AsksListing describedFiles ["test", "--list-categories", "t"] "t" described ∧
      AsksRun describedFiles ["--no-color", "test", "t"] { noColor := true } "t" described ∧
      (run describedFiles ["test", "--list-categories", "t"]).stderr =
        "available categories:\n  a (1 tests)\n" ∧
      (run describedFiles ["--no-color", "test", "t"]).stderr =
        "\na\n  PASS  one\n  PASS  two\n\ntest result: ok. 1 passed, 0 failed\n") := by
  have hlisting : AsksListing describedFiles ["test", "--list-categories", "t"] "t" described :=
    ⟨⟨_, { path := "t", listCategories := true }, Request.parse_eq_test_iff.mp rfl, rfl, rfl⟩, rfl,
      rfl⟩
  have hrun : AsksRun describedFiles ["--no-color", "test", "t"] { noColor := true } "t"
      described :=
    ⟨⟨{ path := "t" }, Request.parse_eq_test_iff.mp rfl, rfl, rfl, rfl⟩, rfl, rfl⟩
  refine ⟨⟨.here, List.suffix_cons _ _, discover_rawName⟩, hlisting, hrun, ?_, ?_⟩
  · unfold run
    rw [hlisting.runWith_eq, discover_described]
    decide +kernel
  · -- The groups are sorted, which is not to be computed here.
    have horder : runOrder described [] = describedGroups.flatMap Prod.snd :=
      congrArg (List.flatMap Prod.snd) discover_described
    have hplan : folderPlan "t" [] described = some (describedGroups.map (groupOf "t"), []) := by
      unfold folderPlan
      rw [discover_described]
      rfl
    unfold run
    rw [hrun.runWith_eq, horder, hplan]
    decide +kernel

end LabelCheck.Suite
