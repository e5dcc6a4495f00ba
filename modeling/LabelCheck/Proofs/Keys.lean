import LabelCheck.Proofs.Fields
import LabelCheck.Toml.Parse

/-!
# Documents without repeated keys

A text that is TOML denotes a table in which no key is repeated, at whatever depth. Two things make
it so: everything that is put into a tree under construction is put under a new key, or in the place
of what stood there, and what a scan reads off the text is made of values for which this holds
already.

* `Item.Keyed`, `Items.Keyed`: trees under construction in which no key is repeated;
* `Items.Keyed.within` and its like: the steps of the construction keep it so;
* `Scan.Gives`: what a scan reads has a property, whatever the text;
* `keyed_of_parse`: the table of a text repeats no key.
-/

namespace LabelCheck.Toml

/-! ### Trees under construction -/

/-- In the tables of an item, at all depths, a key stands at most once. -/
inductive Item.Keyed : Item → Prop where
  | closed {value : Value} (h : value.Keyed) : Keyed (.closed value)
  | table {origin : Origin} {entries : Items} (nodup : (entries.map Prod.fst).Nodup)
    (h : ∀ entry ∈ entries, Keyed entry.2) : Keyed (.table origin entries)
  | tables {latest : List Items} (nodup : ∀ entries ∈ latest, (entries.map Prod.fst).Nodup)
    (h : ∀ entries ∈ latest, ∀ entry ∈ entries, Keyed entry.2) : Keyed (.tables latest)

/-- The same of the entries of a table. -/
structure Items.Keyed (entries : Items) : Prop where
  nodup : (entries.map Prod.fst).Nodup
  item : ∀ entry ∈ entries, entry.2.Keyed

theorem Item.Keyed.inner {origin : Origin} {entries : Items}
    (h : (Item.table origin entries).Keyed) : entries.Keyed := by
  cases h with
  | table hnodup hitem => exact ⟨hnodup, hitem⟩

theorem Item.Keyed.latest {latest : List Items} (h : (Item.tables latest).Keyed) :
    ∀ entries ∈ latest, entries.Keyed := by
  cases h with
  | tables hnodup hitem => exact fun entries hmem => ⟨hnodup entries hmem, hitem entries hmem⟩

namespace Items

theorem keyed_nil : Items.Keyed [] := ⟨List.nodup_nil, nofun⟩

theorem map_fst_replace (key : String) (item : Item) (entries : Items) :
    (replace key item entries).map Prod.fst = entries.map Prod.fst := by
  induction entries with
  | nil => rfl
  | cons entry rest ih =>
    obtain ⟨k, old⟩ := entry
    rw [replace]
    by_cases hk : k = key
    · rw [if_pos hk]
      rfl
    · rw [if_neg hk, List.map_cons, List.map_cons, ih]

theorem mem_replace {key : String} {item : Item} {entries : Items} {entry : String × Item}
    (h : entry ∈ replace key item entries) : entry.2 = item ∨ entry ∈ entries := by
  induction entries with
  | nil => exact .inr h
  | cons first rest ih =>
    obtain ⟨k, old⟩ := first
    rw [replace] at h
    by_cases hk : k = key
    · rw [if_pos hk] at h
      rcases List.mem_cons.mp h with rfl | h
      · exact .inl rfl
      · exact .inr (List.mem_cons_of_mem _ h)
    · rw [if_neg hk] at h
      rcases List.mem_cons.mp h with rfl | h
      · exact .inr List.mem_cons_self
      · exact (ih h).imp_right (List.mem_cons_of_mem _)

theorem erase_sublist (key : String) (entries : Items) : (erase key entries).Sublist entries := by
  induction entries with
  | nil => exact .slnil
  | cons entry rest ih =>
    obtain ⟨k, item⟩ := entry
    rw [erase]
    by_cases hk : k = key
    · rw [if_pos hk]
      exact List.sublist_cons_self _ _
    · rw [if_neg hk]
      exact ih.cons_cons _

/-- What is erased stands nowhere else. -/
theorem lookup_erase {key : String} {entries : Items} (h : (entries.map Prod.fst).Nodup) :
    (erase key entries).lookup key = none := by
  induction entries with
  | nil => rfl
  | cons entry rest ih =>
    obtain ⟨k, item⟩ := entry
    obtain ⟨hk, hrest⟩ := List.nodup_cons.mp h
    rw [erase]
    by_cases heq : k = key
    · rw [if_pos heq]
      refine List.lookup_eq_none_iff.mpr fun other hother => bne_iff_ne.mpr fun hsame => hk ?_
      have hmem : other.1 ∈ rest.map Prod.fst := List.mem_map_of_mem hother
      exact (heq.trans hsame) ▸ hmem
    · have hne : (key == k) = false := beq_false_of_ne fun h => heq h.symm
      rw [if_neg heq, List.lookup_cons, hne]
      exact ih hrest

namespace Keyed

variable {entries out : Items} {key : String} {item : Item}

/-- A new key may be added. -/
theorem append (h : entries.Keyed) (hkey : entries.lookup key = none) (hitem : item.Keyed) :
    Items.Keyed (entries ++ [(key, item)]) := by
  constructor
  · rw [List.map_append, List.nodup_append]
    refine ⟨h.nodup, List.pairwise_singleton _ _, ?_⟩
    intro k hk k' hk' heq
    obtain ⟨entry, hentry, rfl⟩ := List.mem_map.mp hk
    rw [List.map_singleton, List.mem_singleton] at hk'
    exact bne_iff_ne.mp (List.lookup_eq_none_iff.mp hkey entry hentry) (hk'.symm.trans heq.symm)
  · exact List.forall_mem_append.mpr ⟨h.item, List.forall_mem_singleton.mpr hitem⟩

theorem replace (h : entries.Keyed) (hitem : item.Keyed) :
    Items.Keyed (Items.replace key item entries) where
  nodup := by rw [map_fst_replace]; exact h.nodup
  item := fun entry hentry => (mem_replace hentry).elim (fun heq => heq ▸ hitem) (h.item entry)

theorem erase (h : entries.Keyed) : Items.Keyed (Items.erase key entries) where
  nodup := h.nodup.sublist ((erase_sublist key entries).map Prod.fst)
  item := fun entry hentry => h.item entry ((erase_sublist key entries).mem hentry)

theorem lookup (h : entries.Keyed) (hitem : entries.lookup key = some item) : item.Keyed :=
  h.item (key, item) (mem_of_lookup_eq_some hitem)

/-- A change somewhere inside repeats no key if the change itself does not. -/
theorem within {made : Origin} {change : Origin → Items → Option Items}
    (hchange : ∀ {origin entries out}, Items.Keyed entries → change origin entries = some out →
      Items.Keyed out) {path : List String} {origin : Origin} (h : entries.Keyed)
    (hout : Items.within made change path origin entries = some out) : out.Keyed := by
  induction path generalizing origin entries out with
  | nil => exact hchange h hout
  | cons key path ih =>
    rw [Items.within] at hout
    split at hout
    · next hnone =>
      -- The table is made here, and its key was free.
      obtain ⟨inner, hinner, hout⟩ := Option.bind_eq_some_iff.mp hout
      cases hout
      have hkeyed := ih keyed_nil hinner
      exact h.append hnone (.table hkeyed.nodup hkeyed.item)
    · cases hout
    · next inner hsome =>
      split at hout
      · cases hout
      · obtain ⟨inner', hinner, hout⟩ := Option.bind_eq_some_iff.mp hout
        cases hout
        have hkeyed := ih (h.lookup hsome).inner hinner
        exact h.replace (.table hkeyed.nodup hkeyed.item)
    · cases hout
    · next last earlier hsome =>
      -- Of tables in an array the last one is meant.
      obtain ⟨last', hlast, hout⟩ := Option.bind_eq_some_iff.mp hout
      cases hout
      have hlatest := List.forall_mem_cons.mp (h.lookup hsome).latest
      have hkeyed := List.forall_mem_cons.mpr ⟨ih hlatest.1 hlast, hlatest.2⟩
      exact h.replace (.tables (fun entries hmem => (hkeyed entries hmem).nodup)
        fun entries hmem => (hkeyed entries hmem).item)

theorem insert {path : List String} {value : Value} (h : entries.Keyed) (hvalue : value.Keyed)
    (hout : Items.insert entries path key value = some out) : out.Keyed := by
  refine h.within ?_ hout
  intro origin entries out hentries hput
  split at hput
  · cases hput
  · split at hput
    · cases hput
    · next hnone =>
      cases hput
      exact hentries.append (Option.not_isSome_iff_eq_none.mp hnone) (.closed hvalue)

/-- Values under paths of keys repeat none of their own. -/
theorem insertAll {values : List (List String × String × Value)} (h : entries.Keyed)
    (hvalues : ∀ value ∈ values, value.2.2.Keyed)
    (hout : Items.insertAll entries values = some out) : out.Keyed := by
  induction values generalizing entries with
  | nil =>
    cases hout
    exact h
  | cons first rest ih =>
    obtain ⟨hfirst, hrest⟩ := List.forall_mem_cons.mp hvalues
    obtain ⟨next, hnext, hout⟩ := Option.bind_eq_some_iff.mp hout
    exact ih (h.insert hfirst hnext) hrest hout

variable {path : List String} {values : List (List String × String × Value)}

theorem addTable (h : entries.Keyed) (hvalues : ∀ value ∈ values, value.2.2.Keyed)
    (hout : Items.addTable entries path key values = some out) : out.Keyed := by
  refine h.within ?_ hout
  intro origin entries out hentries hput
  split at hput
  · next hnone =>
    obtain ⟨inner, hinner, hput⟩ := Option.bind_eq_some_iff.mp hput
    cases hput
    have hkeyed := keyed_nil.insertAll hvalues hinner
    exact hentries.append hnone (.table hkeyed.nodup hkeyed.item)
  · next inner hsome =>
    obtain ⟨inner', hinner, hput⟩ := Option.bind_eq_some_iff.mp hput
    cases hput
    have hkeyed := (hentries.lookup hsome).inner.insertAll hvalues hinner
    -- The table moves behind the others, so its key is free when it is put there.
    exact hentries.erase.append (lookup_erase hentries.nodup) (.table hkeyed.nodup hkeyed.item)
  · cases hput

theorem addElement (h : entries.Keyed) (hvalues : ∀ value ∈ values, value.2.2.Keyed)
    (hout : Items.addElement entries path key values = some out) : out.Keyed := by
  refine h.within ?_ hout
  intro origin entries out hentries hput
  split at hput
  · next hnone =>
    obtain ⟨inner, hinner, hput⟩ := Option.bind_eq_some_iff.mp hput
    cases hput
    have hkeyed := keyed_nil.insertAll hvalues hinner
    refine hentries.append hnone (.tables ?_ ?_)
    · exact List.forall_mem_singleton.mpr hkeyed.nodup
    · exact List.forall_mem_singleton.mpr hkeyed.item
  · next latest hsome =>
    obtain ⟨inner, hinner, hput⟩ := Option.bind_eq_some_iff.mp hput
    cases hput
    have hkeyed := List.forall_mem_cons.mpr
      ⟨keyed_nil.insertAll hvalues hinner, (hentries.lookup hsome).latest⟩
    exact hentries.replace (.tables (fun entries hmem => (hkeyed entries hmem).nodup)
      fun entries hmem => (hkeyed entries hmem).item)
  · cases hput

end Keyed

theorem values_eq_map (entries : Items) :
    values entries = entries.map fun entry => (entry.1, entry.2.value) := by
  induction entries with
  | nil => rfl
  | cons entry rest ih => rw [values, ih, List.map_cons]

theorem elementValues_eq_map (latest : List Items) :
    elementValues latest = latest.map fun entries => .table (values entries) := by
  induction latest with
  | nil => rfl
  | cons entries rest ih => rw [elementValues, ih, List.map_cons]

end Items

/-- A table of finished items has the keys of the items. -/
theorem keyed_table_values {entries : Items} (hnodup : (entries.map Prod.fst).Nodup)
    (h : ∀ entry ∈ entries, entry.2.value.Keyed) : (Value.table (Items.values entries)).Keyed := by
  rw [Items.values_eq_map]
  refine .table ?_ ?_
  · rwa [List.map_map]
  · exact List.forall_mem_map.mpr h

/-- What has been finished repeats no key either. -/
theorem Item.Keyed.value {item : Item} (h : item.Keyed) : item.value.Keyed := by
  induction h with
  | closed h => exact h
  | table hnodup _ ih => exact keyed_table_values hnodup ih
  | tables hnodup _ ih =>
    refine .array fun v hv => ?_
    rw [Items.elementValues_eq_map, List.mem_reverse] at hv
    obtain ⟨entries, hmem, rfl⟩ := List.mem_map.mp hv
    exact keyed_table_values (hnodup entries hmem) (ih entries hmem)

theorem Items.Keyed.values {entries : Items} (h : entries.Keyed) :
    (Value.table (Items.values entries)).Keyed :=
  keyed_table_values h.nodup fun entry hentry => (h.item entry hentry).value

/-! ### What scans give -/

/-- What a scan gives has a property. -/
def Scan.Gives {α : Type} (s : Scan α) (P : α → Prop) : Prop :=
  ∀ r a rest, s r = some (a, rest) → P a

namespace Scan

variable {α β : Type} {s t : Scan α} {P : α → Prop} {Q : β → Prop}

theorem gives_true (s : Scan α) : s.Gives fun _ => True := fun _ _ _ _ => trivial

theorem gives_pure {a : α} (h : P a) : Gives (pure a) P := by
  intro r b rest heq
  cases heq
  exact h

theorem Gives.bind {f : α → Scan β} (hs : s.Gives P) (hf : ∀ a, P a → (f a).Gives Q) :
    (s >>= f).Gives Q := by
  intro r b rest heq
  obtain ⟨⟨a, r'⟩, ha, hb⟩ := Option.bind_eq_some_iff.mp heq
  exact hf a (hs r a r' ha) r' b rest hb

/-- Of what comes first nothing need be known. -/
theorem gives_bind {f : α → Scan β} (hf : ∀ a, (f a).Gives Q) : (s >>= f).Gives Q :=
  (gives_true s).bind fun a _ => hf a

theorem Gives.orElse (hs : s.Gives P) (ht : t.Gives P) : (s <|> t).Gives P := by
  intro r a rest heq
  change (s r <|> t r) = some (a, rest) at heq
  cases hsr : s r with
  | some result =>
    rw [hsr] at heq
    cases heq
    exact hs r a rest hsr
  | none =>
    rw [hsr] at heq
    exact ht r a rest heq

theorem Gives.optional (h : s.Gives P) : (optional s).Gives fun o => ∀ a ∈ o, P a := by
  intro r o rest heq a ha
  unfold Scan.optional at heq
  split at heq
  · next hs =>
    cases heq
    cases ha
    exact h _ _ _ hs
  · cases heq
    cases ha

theorem gives_ofOption (o : Option α) : (ofOption o).Gives fun a => o = some a := by
  cases o with
  | none =>
    intro _ _ _ heq
    cases heq
  | some a => exact gives_pure rfl

theorem Gives.manyMore (h : s.Gives P) (found : List α) (hfound : ∀ a ∈ found, P a) :
    (manyMore s found).Gives fun all => ∀ a ∈ all, P a := by
  intro r
  -- Every further item makes what is left shorter.
  induction hr : r.length using Nat.strongRecOn generalizing r found with
  | _ length ih =>
    intro all rest heq
    have hreverse : ∀ a ∈ found.reverse, P a := fun a ha => hfound a (List.mem_reverse.mp ha)
    unfold Scan.manyMore at heq
    split at heq
    · cases heq
      exact hreverse
    · next a r' hs =>
      split at heq
      · next hlt =>
        have hmore := List.forall_mem_cons.mpr ⟨h _ _ _ hs, hfound⟩
        exact ih r'.length (hr ▸ hlt) (a :: found) hmore r' rfl all rest heq
      · cases heq
        exact hreverse

theorem Gives.many (h : s.Gives P) : (many s).Gives fun all => ∀ a ∈ all, P a :=
  h.manyMore [] nofun

theorem Gives.separated {separator : Scan Unit} (h : s.Gives P) :
    (separated s separator).Gives fun all => ∀ a ∈ all, P a := by
  refine h.bind fun first hfirst => ?_
  have hmore : (Scan.many do separator; s).Gives fun all => ∀ a ∈ all, P a :=
    Gives.many (gives_bind fun _ => h)
  exact hmore.bind fun more hmore => gives_pure (List.forall_mem_cons.mpr ⟨hfirst, hmore⟩)

theorem Gives.whole {cs : List Char} {a : α} (h : s.Gives P) (heq : whole s cs = some a) : P a := by
  unfold Scan.whole at heq
  split at heq
  · next hs =>
    split at heq
    · cases heq
      exact h _ _ _ hs
    · cases heq
  · cases heq

/-! ### What is read as a value -/

theorem gives_scalar : scalar.Gives Value.Keyed := by
  have htext : Gives (Value.string <$> text) Value.Keyed :=
    gives_bind fun t => gives_pure (.string t)
  have hboolean : boolean.Gives Value.Keyed :=
    Gives.orElse (gives_bind fun _ => gives_pure (.boolean _))
      (gives_bind fun _ => gives_pure (.boolean _))
  have hmoment : moment.Gives Value.Keyed := by
    intro r v rest heq
    unfold moment at heq
    split at heq
    · cases heq
      exact .moment _
    · cases heq
  have hfloat : float.Gives Value.Keyed := gives_bind fun x => gives_pure (.float x)
  have hinteger : integer.Gives Value.Keyed :=
    gives_bind fun n => gives_bind fun _ => gives_pure (.integer n)
  exact htext.orElse (hboolean.orElse (hmoment.orElse (hfloat.orElse hinteger)))

/-- A value under a path of keys. -/
abbrev EntryKeyed (e : List String × String × Value) : Prop := e.2.2.Keyed

theorem Gives.entry {item : Scan Value} (h : item.Gives Value.Keyed) :
    (entry item).Gives EntryKeyed :=
  gives_bind fun _ => gives_bind fun _ => gives_bind fun _ => gives_bind fun _ =>
    h.bind fun _ hv => gives_pure hv

theorem Gives.array {item : Scan Value} (h : item.Gives Value.Keyed) :
    (array item).Gives Value.Keyed := by
  have hitem : Gives (do spread; let v ← item; spread; return v) Value.Keyed :=
    gives_bind fun _ => h.bind fun _ hv => gives_bind fun _ => gives_pure hv
  refine gives_bind fun _ => hitem.separated.optional.bind fun items hitems => ?_
  have harray : (Value.array .bracketed (items.getD [])).Keyed := by
    cases items with
    | none => exact .array nofun
    | some items => exact .array (hitems items rfl)
  have hclose : Gives (do spread; char ']'; return .array .bracketed (items.getD []))
      Value.Keyed :=
    gives_bind fun _ => gives_bind fun _ => gives_pure harray
  -- A comma behind the last item changes nothing.
  split
  · exact gives_bind fun _ => hclose
  · exact hclose

theorem Gives.inlineTable {item : Scan Value} (h : item.Gives Value.Keyed) :
    (inlineTable item).Gives Value.Keyed := by
  have hentry : Gives (do let e ← Scan.entry item; blanks; return e) EntryKeyed :=
    h.entry.bind fun _ he => gives_bind fun _ => gives_pure he
  refine gives_bind fun _ => hentry.separated.optional.bind fun values hvalues => ?_
  refine gives_bind fun _ => gives_bind fun _ => (gives_ofOption _).bind fun entries hentries => ?_
  have hkeyed : entries.Keyed := by
    cases values with
    | none => exact Items.keyed_nil.insertAll (List.forall_mem_nil _) hentries
    | some values => exact Items.keyed_nil.insertAll (hvalues values rfl) hentries
  exact gives_pure hkeyed.values

theorem gives_value (depth : Nat) : (value depth).Gives Value.Keyed := by
  induction depth with
  | zero => exact gives_scalar
  | succ depth ih => exact ih.array.orElse (ih.inlineTable.orElse gives_scalar)

theorem gives_entries : entries.Gives fun values => ∀ e ∈ values, EntryKeyed e := by
  have hentry : Gives (do skipLines; let e ← entry (value depthLimit); lineRest; return e)
      EntryKeyed :=
    gives_bind fun _ => (gives_value depthLimit).entry.bind fun _ he =>
      gives_bind fun _ => gives_pure he
  exact hentry.many.bind fun _ hvalues => gives_bind fun _ => gives_pure hvalues

theorem gives_document : document.Gives fun parts =>
    (∀ e ∈ parts.1, EntryKeyed e) ∧ ∀ part ∈ parts.2, ∀ e ∈ part.2, EntryKeyed e := by
  have hsection : Gives (do let h ← header; return (h, ← entries))
      fun part => ∀ e ∈ part.2, EntryKeyed e :=
    gives_bind fun _ => gives_entries.bind fun _ hvalues => gives_pure hvalues
  exact gives_bind fun _ => gives_entries.bind fun _ hfirst => hsection.many.bind fun _ hsections =>
    gives_pure ⟨hfirst, hsections⟩

end Scan

/-! ### The whole text -/

theorem Items.Keyed.addSection {root out : Items}
    {part : Scan.Header × List (List String × String × Value)} (h : root.Keyed)
    (hvalues : ∀ e ∈ part.2, Scan.EntryKeyed e) (hout : Toml.addSection root part = some out) :
    out.Keyed := by
  obtain ⟨header, values⟩ := part
  cases header with
  | table path key => exact h.addTable hvalues hout
  | element path key => exact h.addElement hvalues hout

theorem Items.Keyed.addSections {parts : List (Scan.Header × List (List String × String × Value))}
    {root out : Items} (h : root.Keyed)
    (hvalues : ∀ part ∈ parts, ∀ e ∈ part.2, Scan.EntryKeyed e)
    (hout : parts.foldlM Toml.addSection root = some out) : out.Keyed := by
  induction parts generalizing root with
  | nil =>
    cases hout
    exact h
  | cons part parts ih =>
    obtain ⟨hpart, hparts⟩ := List.forall_mem_cons.mp hvalues
    obtain ⟨next, hnext, hout⟩ := Option.bind_eq_some_iff.mp hout
    exact ih (h.addSection hpart hnext) hparts hout

/-- **The table of a text repeats no key,** at whatever depth. -/
theorem keyed_of_parse {text : String} {entries : Table} (h : parse text = some entries) :
    (Value.table entries).Keyed := by
  obtain ⟨⟨first, sections⟩, hscan, h⟩ := Option.bind_eq_some_iff.mp h
  obtain ⟨root, hroot, h⟩ := Option.bind_eq_some_iff.mp h
  obtain ⟨all, hall, h⟩ := Option.bind_eq_some_iff.mp h
  cases h
  obtain ⟨hfirst, hsections⟩ := Scan.gives_document.whole hscan
  exact ((Items.keyed_nil.insertAll hfirst hroot).addSections hsections hall).values

end LabelCheck.Toml
