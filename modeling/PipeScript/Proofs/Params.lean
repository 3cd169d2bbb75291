-- The laws of parameter values. A map is told by its values, whichever table holds them, and so
-- is the list that is sorted by name; the map can be made again from that list.
import Mathlib.Data.List.Basic
import Mathlib.Data.List.Induction
import Mathlib.Data.List.Nodup
import PipeScript.Params

namespace PipeScript

namespace Params

/-- The last value that a list gives to a name. -/
def last (pairs : List (String × Json)) (name : String) : Option Json :=
  (pairs.reverse.find? (·.1 = name)).map (·.2.normal)

theorem last_append (pairs : List (String × Json)) (pair : String × Json) (name : String) :
    last (pairs ++ [pair]) name = if pair.1 = name then some pair.2.normal else last pairs name := by
  unfold last
  rw [List.reverse_append, List.reverse_singleton, List.singleton_append, List.find?_cons]
  by_cases h : pair.1 = name <;> simp [h]

/-- The order of a list does not matter if no name is in it twice. -/
theorem last_of_perm {pairs pairs' : List (String × Json)} (h : pairs.Perm pairs')
    (hnames : (Json.keys pairs).Nodup) (name : String) : last pairs name = last pairs' name := by
  have hreverse : pairs.reverse.Perm pairs'.reverse :=
    (List.reverse_perm pairs).trans (h.trans (List.reverse_perm pairs').symm)
  have hdistinct : (pairs.reverse.map (·.1)).Nodup := by
    rw [List.map_reverse]
    exact List.nodup_reverse.mpr hnames
  have hdistinct' : (pairs'.reverse.map (·.1)).Nodup := (hreverse.map _).nodup_iff.mp hdistinct
  -- the two lists backwards are tables with the same entries
  have hget : Table.get? ⟨pairs.reverse, hdistinct⟩ name =
      Table.get? ⟨pairs'.reverse, hdistinct'⟩ name := Table.get?_of_perm hreverse name
  simpa [last, Table.get?, Function.comp_def] using congrArg (Option.map Json.normal) hget

/-! ## Tables -/

namespace Stored

theorem ofList_append (pairs : List (String × Json)) (pair : String × Json) :
    ofList (pairs ++ [pair]) = (ofList pairs).insert pair.1 pair.2 :=
  List.foldl_concat ..

/-- A table holds the last values that were put into it. -/
theorem get?_ofList (pairs : List (String × Json)) (name : String) :
    (ofList pairs).get? name = last pairs name := by
  induction pairs using List.reverseRecOn with
  | nil => rfl
  | append_singleton pairs pair ih =>
    rw [ofList_append, last_append, ← ih]
    exact Table.get?_insert _ _ _ name

/-- A list of distinct names goes into a table as it is. -/
theorem entries_ofList {pairs : List (String × Json)} (hnames : (Json.keys pairs).Nodup)
    (hvalues : Json.canonicalMembers pairs = true) : (ofList pairs).entries = pairs := by
  induction pairs using List.reverseRecOn with
  | nil => rfl
  | append_singleton pairs pair ih =>
    rw [Json.keys, List.map_append, List.nodup_append] at hnames
    have hall := (Json.canonicalMembers_iff _).mp hvalues
    have hentries : (ofList pairs).entries = pairs :=
      ih hnames.1 ((Json.canonicalMembers_iff _).mpr fun m hm => hall m (List.mem_append_left _ hm))
    have hnew : pair.1 ∉ pairs.map (·.1) := fun hm =>
      hnames.2.2 _ hm pair.1 (List.mem_singleton_self _) rfl
    have hnormal : pair.2.normal = pair.2 :=
      Json.normal_of_canonical _ (hall pair (List.mem_append_right _ (List.mem_singleton_self _)))
    show (ofList (pairs ++ [pair])).entries = _
    rw [ofList_append]
    show putBy (·.1) (pair.1, pair.2.normal) (ofList pairs).entries = _
    rw [hentries, hnormal, putBy_of_notMem hnew]

/-- Tables hold the same map exactly if they have the same values. -/
theorem equiv_iff {s s' : Stored} : s ≈ s' ↔ ∀ name, s.get? name = s'.get? name := by
  constructor
  · exact fun h name => Table.get?_of_perm h name
  · intro h
    have hmem : ∀ entry, entry ∈ s.entries ↔ entry ∈ s'.entries := by
      intro entry
      rw [← Table.get?_eq_some, ← Table.get?_eq_some, h]
    exact (List.perm_ext_iff_of_nodup (List.Nodup.of_map _ s.distinct)
      (List.Nodup.of_map _ s'.distinct)).mpr hmem

theorem canonical_sorted (s : Stored) : Json.CanonicalMembers s.sorted :=
  Json.sortMembers_canonical _ s.canonical

/-- The table of the sorted list holds the same map. -/
theorem ofList_sorted (s : Stored) : ofList s.sorted ≈ s := by
  obtain ⟨hnames, hvalues⟩ := s.canonical_sorted
  show (ofList s.sorted).entries.Perm s.entries
  rw [entries_ofList (Json.nodup_keys hnames) hvalues]
  exact Json.perm_sortMembers s.distinct

end Stored

/-! ## Maps -/

theorem get?_ofList (pairs : List (String × Json)) (name : String) :
    (ofList pairs).get? name = last pairs name :=
  Stored.get?_ofList pairs name

theorem ofStored_eq_ofStored {s s' : Stored} :
    ofStored s = ofStored s' ↔ ∀ name, s.get? name = s'.get? name := by
  rw [← Stored.equiv_iff]
  exact ⟨Quotient.exact, Quotient.sound⟩

/-- Two lists make one map exactly if they end with the same values. -/
theorem ofList_eq_ofList {pairs pairs' : List (String × Json)} :
    ofList pairs = ofList pairs' ↔ ∀ name, last pairs name = last pairs' name := by
  unfold ofList
  rw [ofStored_eq_ofStored]
  simp only [Stored.get?_ofList]

/-- The sorted list has every value under its name. -/
theorem mem_sorted (params : Params) (name : String) (value : Json) :
    (name, value) ∈ params.sorted ↔ params.get? name = some value := by
  induction params using Quotient.ind with
  | _ s => exact (Json.perm_sortMembers s.distinct).mem_iff.trans (s.get?_eq_some name value).symm

theorem canonical_sorted (params : Params) : Json.CanonicalMembers params.sorted := by
  induction params using Quotient.ind with
  | _ s => exact s.canonical_sorted

/-- The map of its own sorted list is the map itself. -/
theorem ofList_sorted (params : Params) : ofList params.sorted = params := by
  induction params using Quotient.ind with
  | _ s => exact Quotient.sound s.ofList_sorted

end Params

end PipeScript
