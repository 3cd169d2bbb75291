-- The laws of canonical JSON: `normal` always gives a canonical value, and leaves a
-- canonical value alone.
import PipeScript.Json.Value

namespace PipeScript

namespace Json

/-! ## Sorted insertion -/

@[simp]
theorem keys_nil : keys [] = [] := rfl

@[simp]
theorem keys_cons (k : String) (v : Json) (rest : List (String × Json)) :
    keys ((k, v) :: rest) = k :: keys rest := rfl

theorem mem_keys_insertMember (x k : String) (v : Json) (ms : List (String × Json)) :
    x ∈ keys (insertMember k v ms) ↔ x = k ∨ x ∈ keys ms := by
  induction ms with
  | nil => simp [insertMember]
  | cons m rest ih =>
    obtain ⟨l, w⟩ := m
    unfold insertMember
    split
    · simp
    · split
      · rename_i h
        subst h
        simp
      · simp [ih, or_left_comm]

theorem pairwise_insertMember (k : String) (v : Json) (ms : List (String × Json))
    (h : (keys ms).Pairwise (· < ·)) : (keys (insertMember k v ms)).Pairwise (· < ·) := by
  induction ms with
  | nil => simp [insertMember]
  | cons m rest ih =>
    obtain ⟨l, w⟩ := m
    simp only [keys_cons, List.pairwise_cons] at h
    unfold insertMember
    split
    · rename_i hlt
      simp only [keys_cons, List.pairwise_cons, List.mem_cons]
      refine ⟨?_, h⟩
      rintro x (rfl | hx)
      · exact hlt
      · exact String.lt_trans hlt (h.1 x hx)
    · rename_i hge
      split
      · rename_i heq
        subst heq
        simpa using h
      · rename_i hne
        simp only [keys_cons, List.pairwise_cons]
        refine ⟨?_, ih h.2⟩
        intro x hx
        rcases (mem_keys_insertMember x k v rest).mp hx with rfl | hx
        · exact Std.lt_of_le_of_ne hge (Ne.symm hne)
        · exact h.1 x hx

theorem canonicalMembers_insertMember (k : String) (v : Json) (ms : List (String × Json))
    (hv : v.canonical) (h : canonicalMembers ms) : canonicalMembers (insertMember k v ms) := by
  induction ms with
  | nil => simp [insertMember, canonicalMembers, hv]
  | cons m rest ih =>
    obtain ⟨l, w⟩ := m
    simp only [canonicalMembers, Bool.and_eq_true] at h
    unfold insertMember
    split
    · simp [canonicalMembers, hv, h]
    · split <;> simp [canonicalMembers, hv, h, ih]

/-- A member whose key comes after all others goes to the end. -/
theorem insertMember_last (k : String) (v : Json) (ms : List (String × Json))
    (h : ∀ x ∈ keys ms, x < k) : insertMember k v ms = ms ++ [(k, v)] := by
  induction ms with
  | nil => rfl
  | cons m rest ih =>
    obtain ⟨l, w⟩ := m
    simp only [keys_cons, List.mem_cons, forall_eq_or_imp] at h
    have hle : ¬ k < l := fun hk => String.lt_irrefl k (String.lt_trans hk h.1)
    have hne : k ≠ l := fun he => String.lt_irrefl k (by rw [he] at h ⊢; exact h.1)
    simp [insertMember, hle, hne, ih h.2]

/-! ## The canonical value -/

/-- Whether a list of members makes a canonical object. -/
def CanonicalMembers (ms : List (String × Json)) : Prop :=
  (keys ms).Pairwise (· < ·) ∧ canonicalMembers ms = true

theorem canonical_object (ms : List (String × Json)) :
    (Json.object ms).canonical = true ↔ CanonicalMembers ms := by
  simp [canonical, CanonicalMembers]

/-- Sorted members have strictly increasing keys, whatever order they came in. -/
theorem pairwise_sortMembers (ms : List (String × Json)) :
    (keys (sortMembers ms)).Pairwise (· < ·) := by
  have hfold : ∀ sorted : List (String × Json), (keys sorted).Pairwise (· < ·) →
      (keys (ms.foldl (fun acc m => insertMember m.1 m.2 acc) sorted)).Pairwise (· < ·) := by
    induction ms with
    | nil => exact fun _ hs => hs
    | cons m rest ih => exact fun sorted hs => ih _ (pairwise_insertMember m.1 m.2 sorted hs)
  exact hfold [] .nil

theorem sortMembers_canonical (ms : List (String × Json)) (h : canonicalMembers ms) :
    CanonicalMembers (sortMembers ms) := by
  refine ⟨pairwise_sortMembers ms, ?_⟩
  have hfold : ∀ sorted : List (String × Json), canonicalMembers sorted →
      canonicalMembers (ms.foldl (fun acc m => insertMember m.1 m.2 acc) sorted) := by
    induction ms with
    | nil => exact fun _ hs => hs
    | cons m rest ih =>
      obtain ⟨k, v⟩ := m
      simp only [canonicalMembers, Bool.and_eq_true] at h
      exact fun sorted hs => ih h.2 _ (canonicalMembers_insertMember k v sorted h.1 hs)
  exact hfold [] rfl

mutual

theorem canonical_normal : (j : Json) → j.normal.canonical = true
  | .null | .bool _ | .number _ | .string _ => rfl
  | .array items => canonicalItems_normal items
  | .object ms => by
    rw [normal, canonical_object]
    exact sortMembers_canonical _ (canonicalMembers_normal ms)

theorem canonicalItems_normal : (items : List Json) → canonicalItems (normalItems items) = true
  | [] => rfl
  | item :: rest => by
    simp [normalItems, canonicalItems, canonical_normal item, canonicalItems_normal rest]

theorem canonicalMembers_normal :
    (ms : List (String × Json)) → canonicalMembers (normalMembers ms) = true
  | [] => rfl
  | (_, v) :: rest => by
    simp [normalMembers, canonicalMembers, canonical_normal v, canonicalMembers_normal rest]

end

theorem foldl_insertMember_sorted (ms sorted : List (String × Json))
    (h : (keys (sorted ++ ms)).Pairwise (· < ·)) :
    ms.foldl (fun acc m => insertMember m.1 m.2 acc) sorted = sorted ++ ms := by
  induction ms generalizing sorted with
  | nil => simp
  | cons m rest ih =>
    obtain ⟨k, v⟩ := m
    have hlast : ∀ x ∈ keys sorted, x < k := by
      simp only [keys, List.map_append, List.map_cons, List.pairwise_append] at h
      intro x hx
      exact h.2.2 x hx k (List.mem_cons_self ..)
    rw [List.foldl_cons, insertMember_last k v sorted hlast, ih _ (by simpa using h)]
    simp

/-- Members in strictly increasing order stay as they are. -/
theorem sortMembers_of_pairwise (ms : List (String × Json)) (h : (keys ms).Pairwise (· < ·)) :
    sortMembers ms = ms := by
  simpa [sortMembers] using foldl_insertMember_sorted ms [] (by simpa using h)

/-! ## Members in any order -/

theorem canonicalMembers_iff (ms : List (String × Json)) :
    canonicalMembers ms = true ↔ ∀ m ∈ ms, m.2.canonical = true := by
  induction ms with
  | nil => simp [canonicalMembers]
  | cons m rest ih =>
    obtain ⟨k, v⟩ := m
    simp [canonicalMembers, ih]

theorem perm_insertMember {k : String} {ms : List (String × Json)} (h : k ∉ keys ms) (v : Json) :
    (insertMember k v ms).Perm ((k, v) :: ms) := by
  induction ms with
  | nil => exact .refl _
  | cons m rest ih =>
    obtain ⟨l, w⟩ := m
    rw [keys_cons, List.mem_cons, not_or] at h
    unfold insertMember
    split
    · exact .refl _
    · rw [if_neg h.1]
      exact ((ih h.2).cons _).trans (.swap ..)

theorem perm_foldl_insertMember (ms sorted : List (String × Json))
    (h : (keys (ms ++ sorted)).Nodup) :
    (ms.foldl (fun acc m => insertMember m.1 m.2 acc) sorted).Perm (ms ++ sorted) := by
  induction ms generalizing sorted with
  | nil => exact .refl _
  | cons m rest ih =>
    obtain ⟨k, v⟩ := m
    rw [List.cons_append, keys_cons, List.nodup_cons] at h
    have hnew : k ∉ keys sorted := by
      intro hk
      apply h.1
      rw [keys, List.map_append]
      exact List.mem_append_right _ hk
    -- the member stands in front of the sorted ones, and then in front of all
    have hmember : (rest ++ insertMember k v sorted).Perm ((k, v) :: (rest ++ sorted)) :=
      ((perm_insertMember hnew v).append_left rest).trans List.perm_middle
    have hdistinct : (keys (rest ++ insertMember k v sorted)).Nodup :=
      (hmember.map Prod.fst).nodup_iff.mpr (List.nodup_cons.mpr h)
    exact (ih _ hdistinct).trans hmember

/-- If no key is there twice, every member is kept. -/
theorem perm_sortMembers {ms : List (String × Json)} (h : (keys ms).Nodup) :
    (sortMembers ms).Perm ms := by
  simpa [sortMembers] using perm_foldl_insertMember ms [] (by simpa using h)

theorem nodup_keys {ms : List (String × Json)} (h : (keys ms).Pairwise (· < ·)) :
    (keys ms).Nodup :=
  h.imp fun {k l} (hlt : k < l) (heq : k = l) => String.lt_irrefl l (heq ▸ hlt)

/-- Sorting does not tell in which order the members came, if no key is there twice. -/
theorem sortMembers_of_perm {ms ms' : List (String × Json)} (h : ms.Perm ms')
    (hkeys : (keys ms).Nodup) : sortMembers ms = sortMembers ms' := by
  have hkeys' : (keys ms').Nodup := (h.map Prod.fst).nodup_iff.mp hkeys
  have hsorted : ∀ list : List (String × Json),
      (sortMembers list).Pairwise fun m m' => m.1 < m'.1 := by
    intro list
    exact List.pairwise_map.mp (pairwise_sortMembers list)
  apply List.Perm.eq_of_pairwise _ (hsorted ms) (hsorted ms')
  · exact (perm_sortMembers hkeys).trans (h.trans (perm_sortMembers hkeys').symm)
  · exact fun m m' _ _ hlt hgt => absurd hgt (String.lt_asymm hlt)

/-! ## Values that are canonical already -/

mutual

theorem normal_of_canonical : (j : Json) → j.canonical = true → j.normal = j
  | .null, _ | .bool _, _ | .number _, _ | .string _, _ => rfl
  | .array items, h => by rw [normal, normalItems_of_canonical items h]
  | .object ms, h => by
    have hc := (canonical_object ms).mp h
    rw [normal, normalMembers_of_canonical ms hc.2, sortMembers_of_pairwise ms hc.1]

theorem normalItems_of_canonical :
    (items : List Json) → canonicalItems items = true → normalItems items = items
  | [], _ => rfl
  | item :: rest, h => by
    simp only [canonicalItems, Bool.and_eq_true] at h
    rw [normalItems, normal_of_canonical item h.1, normalItems_of_canonical rest h.2]

theorem normalMembers_of_canonical : (ms : List (String × Json)) →
    canonicalMembers ms = true → normalMembers ms = ms
  | [], _ => rfl
  | (k, v) :: rest, h => by
    simp only [canonicalMembers, Bool.and_eq_true] at h
    rw [normalMembers, normal_of_canonical v h.1, normalMembers_of_canonical rest h.2]

end

end Json

end PipeScript
