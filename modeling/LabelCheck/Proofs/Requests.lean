import LabelCheck.Proofs.TestRun

/-!
# Requests that are warned about

A run warns about a request under which it finds no category. Whether it finds one is told by what
the request adds to the categories that have been chosen, and these are kept for all requests
together. So a request is warned about if nothing is left for it: every category that it asks for
has been asked for before, which is the case for one that asks for none, but also for one that comes
a second time.

* `AsksFor`, `Missing`: what a single request asks for, and that it asks for nothing;
* `Spent`: nothing is left for a request;
* `spentRequests`: the requests of a list that are spent when it is their turn;
* `Selection.Knows`: the invariant, by which what has been chosen is what has been asked for;
* `warnsOf_select`: the requests that are warned about.

A missing request is always warned about. That no other request is does not hold
(`not_forall_warned_iff_missing`); it does hold for requests that have no category in common.
-/

namespace LabelCheck.Suite

open Files

/-! ### What a request asks for -/

/-- **Whether a request asks for a category:** without the slashes at its ends it is the category,
or the category goes on behind it with a slash. -/
def AsksFor (request category : String) : Prop :=
  ∃ name, Stripped request name ∧ (category = name ∨ ∃ rest, category = name ++ "/" ++ rest)

theorem asksFor_trimSlashes_iff {request category : String} :
    asksFor (trimSlashes request) category = true ↔ AsksFor request category := by
  unfold AsksFor
  simp only [stripped_iff, exists_eq_left, asksFor_iff]

instance (request category : String) : Decidable (AsksFor request category) :=
  decidable_of_iff _ asksFor_trimSlashes_iff

/-- **A missing request:** it asks for none of the categories. -/
def Missing (names : List String) (request : String) : Prop :=
  ∀ category ∈ names, ¬ AsksFor request category

/-- **A spent request:** every category that it asks for was asked for by one of the requests
`before`. -/
def Spent (names before : List String) (request : String) : Prop :=
  ∀ category ∈ names, AsksFor request category → ∃ earlier ∈ before, AsksFor earlier category

instance (names : List String) (request : String) : Decidable (Missing names request) :=
  inferInstanceAs (Decidable (∀ category ∈ names, ¬ AsksFor request category))

instance (names before : List String) (request : String) :
    Decidable (Spent names before request) :=
  inferInstanceAs (Decidable
    (∀ category ∈ names, AsksFor request category → ∃ earlier ∈ before, AsksFor earlier category))

/-- A missing request is spent from the start. -/
theorem Missing.spent {names : List String} {request : String} (h : Missing names request)
    (before : List String) : Spent names before request :=
  fun category hcategory hasks => absurd hasks (h category hcategory)

/-- Requests with the same text between their slashes ask for the same categories. -/
theorem asksFor_congr {request request' name : String} (h : Stripped request name)
    (h' : Stripped request' name) (category : String) :
    AsksFor request category ↔ AsksFor request' category := by
  rw [stripped_iff] at h h'
  rw [← asksFor_trimSlashes_iff, ← asksFor_trimSlashes_iff, ← h, ← h']

/-- The requests of a list that are spent when it is their turn, behind the requests `before`. -/
def spentRequests (names : List String) : (before requests : List String) → List String
  | _, [] => []
  | before, request :: rest =>
    (if Spent names before request then [request] else []) ++
      spentRequests names (before ++ [request]) rest

/-- A request is among them if it is spent at one of its places in the list. -/
theorem mem_spentRequests_iff {names before requests : List String} {request : String} :
    request ∈ spentRequests names before requests ↔
      ∃ first rest, requests = first ++ request :: rest ∧
        Spent names (before ++ first) request := by
  induction requests generalizing before with
  | nil => simp [spentRequests]
  | cons next requests ih =>
    have hhere : request ∈ (if Spent names before next then [next] else []) ↔
        request = next ∧ Spent names before next := by
      by_cases hspent : Spent names before next
      · simp [hspent]
      · simp [hspent]
    rw [spentRequests, List.mem_append, hhere, ih]
    -- Either the request is the first one, or it stands behind the first one.
    constructor
    · rintro (⟨rfl, hspent⟩ | ⟨first, rest, rfl, hspent⟩)
      · refine ⟨[], requests, rfl, ?_⟩
        rwa [List.append_nil]
      · refine ⟨next :: first, rest, rfl, ?_⟩
        rwa [List.append_assoc] at hspent
    · rintro ⟨first, rest, heq, hspent⟩
      cases first with
      | nil =>
        obtain ⟨rfl, _⟩ := List.cons.inj heq
        rw [List.append_nil] at hspent
        exact .inl ⟨rfl, hspent⟩
      | cons _ first =>
        obtain ⟨rfl, hrest⟩ := List.cons.inj heq
        refine .inr ⟨first, rest, hrest, ?_⟩
        rwa [List.append_assoc]

/-! ### What is known while requests are worked off -/

/-- **The invariant.** Of the categories `names` those have been chosen for which one of the
requests `before` asks. -/
def Selection.Knows (names before : List String) (s : Selection) : Prop :=
  ∀ category ∈ names, category ∈ s.chosen ↔ ∃ earlier ∈ before, AsksFor earlier category

theorem Selection.knows_empty (names : List String) : Selection.Knows names [] {} := by
  intro category _
  simp

section

variable {names before : List String} {s : Selection}

/-- **The invariant goes on from one request to the next.** -/
theorem Selection.Knows.take (h : s.Knows names before) (request : String) :
    (s.take names request).Knows names (before ++ [request]) := by
  intro category hcategory
  rw [mem_chosen_take s request hcategory, h category hcategory, asksFor_trimSlashes_iff]
  simp only [List.mem_append, List.mem_singleton, or_and_right, exists_or, exists_eq_left]

/-- **A request is noted as idle exactly if it is spent.** -/
theorem Selection.Knows.idle_take (h : s.Knows names before) (request : String) :
    (s.take names request).idle =
      s.idle ++ if Spent names before request then [trimSlashes request] else [] := by
  -- Nothing new is found if what the request asks for has been chosen, hence asked for.
  have hnew : (names.filter fun category =>
      asksFor (trimSlashes request) category && !s.chosen.contains category).isEmpty = true ↔
        Spent names before request := by
    rw [List.isEmpty_iff, List.filter_eq_nil_iff]
    refine forall₂_congr fun category hcategory => ?_
    rw [← h category hcategory, ← asksFor_trimSlashes_iff]
    simp
  by_cases hspent : Spent names before request
  · rw [Selection.take, if_pos (hnew.mpr hspent), if_pos hspent]
  · rw [Selection.take, if_neg fun hempty => hspent (hnew.mp hempty), if_neg hspent,
      List.append_nil]

/-- The requests that are noted in the end are those that were spent when it was their turn. -/
theorem Selection.Knows.idle_foldl (h : s.Knows names before) (requests : List String) :
    (requests.foldl (Selection.take names) s).idle =
      s.idle ++ (spentRequests names before requests).map trimSlashes := by
  induction requests generalizing s before with
  | nil => rw [spentRequests, List.map_nil, List.append_nil, List.foldl_nil]
  | cons request requests ih =>
    have hhere : (if Spent names before request then [request] else []).map trimSlashes =
        if Spent names before request then [trimSlashes request] else [] := by
      by_cases hspent : Spent names before request
      · rw [if_pos hspent, if_pos hspent, List.map_singleton]
      · rw [if_neg hspent, if_neg hspent, List.map_nil]
    calc ((request :: requests).foldl (Selection.take names) s).idle
        = (s.take names request).idle ++
            (spentRequests names (before ++ [request]) requests).map trimSlashes :=
          ih (h.take request)
      _ = s.idle ++ (spentRequests names before (request :: requests)).map trimSlashes := by
          rw [h.idle_take, spentRequests, List.map_append, hhere, List.append_assoc]

end

/-- The requests that a run is told of are those that were spent when it was their turn. -/
theorem snd_select (all : Categories) (requests : List String) :
    (select all requests).2 =
      (spentRequests (all.map Prod.fst) [] requests).map trimSlashes := by
  by_cases hnone : requests = []
  · rw [hnone]
    rfl
  · rw [select, if_neg fun h => hnone (List.isEmpty_iff.mp h)]
    exact (Selection.knows_empty _).idle_foldl requests

/-! ### The requests that are warned about -/

/-- **The warnings about requests.** `warned` are the requests that are warned about when the
categories `all` were found, each without the slashes at its ends. -/
structure WarnsOf (all : Categories) (requests warned : List String) : Prop where
  /-- They stand in the order of the requests, and as often as requests are spent. -/
  eq_spentRequests : warned = (spentRequests (all.map Prod.fst) [] requests).map trimSlashes
  /-- A request is warned about exactly if it is spent at one of its places. -/
  mem_iff : ∀ name, name ∈ warned ↔
    ∃ before request rest, requests = before ++ request :: rest ∧ Stripped request name ∧
      Spent (all.map Prod.fst) before request
  /-- A missing request is warned about. -/
  of_missing : ∀ request ∈ requests, ∀ name, Stripped request name →
    Missing (all.map Prod.fst) request → name ∈ warned
  /-- If no two requests have a category in common, no other request is. -/
  iff_missing : requests.Pairwise (fun request request' =>
      ∀ category ∈ all.map Prod.fst, ¬ (AsksFor request category ∧ AsksFor request' category)) →
    ∀ request ∈ requests, ∀ name, Stripped request name →
      (name ∈ warned ↔ Missing (all.map Prod.fst) request)
  /-- A run that found these categories tells of each of them, in this order. -/
  told : ∀ (path : Path) (folder : Folder Unit), discover folder = all → all ≠ [] →
    ∃ groups, folderPlan path requests folder = some (groups, warned.map (missingLine all))

/-- A request that shares no category with an earlier one is spent only if it is missing. -/
theorem Spent.missing {names before : List String} {request : String}
    (h : Spent names before request)
    (hapart : ∀ earlier ∈ before, ∀ category ∈ names,
      ¬ (AsksFor earlier category ∧ AsksFor request category)) : Missing names request := by
  intro category hcategory hasks
  obtain ⟨earlier, hearlier, hasks'⟩ := h category hcategory hasks
  exact hapart earlier hearlier category hcategory ⟨hasks', hasks⟩

/-- **The requests that are warned about,** for all categories and all requests, repeated and
overlapping ones among them. -/
theorem warnsOf_select (all : Categories) (requests : List String) :
    WarnsOf all requests (select all requests).2 := by
  have hmem : ∀ name, name ∈ (select all requests).2 ↔
      ∃ before request rest, requests = before ++ request :: rest ∧ Stripped request name ∧
        Spent (all.map Prod.fst) before request := by
    intro name
    rw [snd_select, List.mem_map]
    constructor
    · rintro ⟨request, hrequest, rfl⟩
      obtain ⟨before, rest, heq, hspent⟩ := mem_spentRequests_iff.mp hrequest
      exact ⟨before, request, rest, heq, stripped_iff.mpr rfl, hspent⟩
    · rintro ⟨before, request, rest, heq, hname, hspent⟩
      exact ⟨request, mem_spentRequests_iff.mpr ⟨before, rest, heq, hspent⟩,
        (stripped_iff.mp hname).symm⟩
  have hmissing : ∀ request ∈ requests, ∀ name, Stripped request name →
      Missing (all.map Prod.fst) request → name ∈ (select all requests).2 := by
    intro request hrequest name hname hnone
    obtain ⟨before, rest, heq⟩ := List.append_of_mem hrequest
    exact (hmem name).mpr ⟨before, request, rest, heq, hname, hnone.spent before⟩
  refine ⟨snd_select all requests, hmem, hmissing, ?_, ?_⟩
  · intro hapart request hrequest name hname
    refine ⟨?_, hmissing request hrequest name hname⟩
    intro hwarned
    -- The spent request is written differently at most in its slashes.
    obtain ⟨before, request', rest, heq, hname', hspent⟩ := (hmem name).mp hwarned
    rw [heq, List.pairwise_append] at hapart
    have hnone := hspent.missing fun earlier hearlier =>
      hapart.2.2 earlier hearlier request' List.mem_cons_self
    intro category hcategory hasks
    exact hnone category hcategory ((asksFor_congr hname hname' category).mp hasks)
  · rintro path folder rfl hne
    rw [folderPlan, if_neg fun hempty => hne (List.isEmpty_iff.mp hempty)]
    exact ⟨_, rfl⟩

/-- One category with one document. -/
def oneCategory : Categories := [("a", [["a", "x.test.toml"]])]

/-- **A category that was found can be told as missing:** the second of two equal requests is warned
about. -/
theorem not_forall_warned_iff_missing :
    ¬ ∀ (all : Categories) (requests : List String), requests ≠ [] →
      ∀ request ∈ requests, ∀ name, Stripped request name →
        (name ∈ (select all requests).2 ↔ Missing (all.map Prod.fst) request) := by
  intro h
  have hname : Stripped "a" "a" := stripped_iff.mpr (by decide +kernel)
  have hiff := h oneCategory ["a", "a"] (by decide) "a" (by decide) "a" hname
  have hwarned : "a" ∈ (select oneCategory ["a", "a"]).2 := by decide +kernel
  have hfound : ¬ Missing (oneCategory.map Prod.fst) "a" := by decide +kernel
  exact hfound (hiff.mp hwarned)

end LabelCheck.Suite
