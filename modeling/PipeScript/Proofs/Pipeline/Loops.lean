-- The loops of the traversal and of the search for a cycle end. A turn that goes on uses up what
-- is left to do: the work on the stack, one turn for each new node and one for each edge that
-- leaves a new node. So no loop takes more turns than there are nodes and edges.
import Mathlib.Logic.Relation
import PipeScript.Pipeline.Cycle
import PipeScript.Proofs.Pipeline.Links

namespace PipeScript

open Relation (ReflTransGen)

/-! ## Turns one after the other -/

namespace Turn

variable {State Result : Type} {turn : State → Turn State Result} {s t : State}

/-- From a state the loop goes on for some turns, and then it stops with an answer. -/
inductive Ends (turn : State → Turn State Result) : State → Nat → Result → Prop
  | stop {s : State} {answer : Result} : turn s = .stop answer → Ends turn s 0 answer
  | again {s next : State} {turns : Nat} {answer : Result} :
      turn s = .again next → Ends turn next turns answer → Ends turn s (turns + 1) answer

/-- The loop comes from one state to another one. -/
def Reaches (turn : State → Turn State Result) : State → State → Prop :=
  ReflTransGen fun s next => turn s = .again next

theorem Ends.unique {turns turns' : Nat} {answer answer' : Result}
    (h : Ends turn s turns answer) (h' : Ends turn s turns' answer') : answer = answer' := by
  induction h generalizing turns' with
  | stop hs =>
    cases h' with
    | stop hs' =>
      rw [hs] at hs'
      cases hs'
      rfl
    | again hs' _ =>
      rw [hs] at hs'
      cases hs'
  | again hs _ ih =>
    cases h' with
    | stop hs' =>
      rw [hs] at hs'
      cases hs'
    | again hs' hrest =>
      rw [hs] at hs'
      cases hs'
      exact ih hrest

/-- A loop ends with an answer when it comes to a state where it stops with that answer. -/
theorem exists_ends_iff (answer : Result) :
    (∃ turns, Ends turn s turns answer) ↔ ∃ last, Reaches turn s last ∧ turn last = .stop answer := by
  constructor
  · rintro ⟨turns, h⟩
    induction h with
    | stop hs => exact ⟨_, .refl, hs⟩
    | again hs _ ih =>
      obtain ⟨last, hway, hlast⟩ := ih
      exact ⟨last, .head hs hway, hlast⟩
  · rintro ⟨last, hway, hlast⟩
    induction hway using ReflTransGen.head_induction_on with
    | refl => exact ⟨0, .stop hlast⟩
    | head hs _ ih =>
      obtain ⟨turns, h⟩ := ih
      exact ⟨turns + 1, .again hs h⟩

section

variable {left : State → Nat} (hleft : ∀ s next, turn s = .again next → left next < left s)
include hleft

/-- A loop takes no more turns than are left. -/
theorem Ends.le {turns : Nat} {answer : Result} (h : Ends turn s turns answer) :
    turns ≤ left s := by
  induction h with
  | stop _ => exact Nat.zero_le _
  | again hs _ ih =>
    have := hleft _ _ hs
    omega

theorem Reaches.le (h : Reaches turn s t) : left t ≤ left s := by
  induction h with
  | refl => exact Nat.le_refl _
  | tail _ hs ih =>
    have := hleft _ _ hs
    omega

end

end Turn

/-! ## What is left to do -/

namespace Wiring

variable {n : Nat} {α : Type} {new : α → Bool} {marks : Vector α n} {i : Fin n} {a : α}

/-- One turn for each node whose mark is new, and one for each link that leaves such a node. -/
def owed (links : List (Fin n × Fin n)) (new : α → Bool) (marks : Vector α n) : Nat :=
  (List.finRange n).countP (fun i => new (marks.get i)) + links.countP fun l => new (marks.get l.1)

theorem owed_le (links : List (Fin n × Fin n)) (new : α → Bool) (marks : Vector α n) :
    owed links new marks ≤ n + links.length := by
  have hnodes := List.countP_le_length (p := fun i => new (marks.get i)) (l := List.finRange n)
  have hlinks := List.countP_le_length (p := fun l => new (marks.get l.1)) (l := links)
  rw [List.length_finRange] at hnodes
  unfold owed
  omega

/-- When a node is no longer new, just the items of that node are no longer new. -/
theorem countP_set {β : Type} (node : β → Fin n) (hi : new (marks.get i) = true)
    (ha : new a = false) (items : List β) :
    items.countP (fun b => new ((marks.set i a i.isLt).get (node b))) +
        items.countP (fun b => node b = i) =
      items.countP fun b => new (marks.get (node b)) := by
  induction items with
  | nil => rfl
  | cons b rest ih =>
    simp only [List.countP_cons, get_set, decide_eq_true_eq] at ih ⊢
    by_cases hb : node b = i
    · simp only [hb, if_true, ha, hi, Bool.false_eq_true, if_false]
      omega
    · simp only [hb, Ne.symm hb, if_false]
      omega

/-- A new node that is entered owed one turn for itself and one for each of its successors. -/
theorem owed_set (links : List (Fin n × Fin n)) (hi : new (marks.get i) = true)
    (ha : new a = false) :
    owed links new (marks.set i a i.isLt) + (((ofLinks links).successors.get i).length + 1) =
      owed links new marks := by
  have hnodes := countP_set id hi ha (List.finRange n)
  have hlinks := countP_set (·.1) hi ha links
  have hone : (List.finRange n).countP (fun j => id j = i) = 1 :=
    List.count_eq_one_of_mem (List.nodup_finRange n) (List.mem_finRange i)
  have hsucc : ((ofLinks links).successors.get i).length = links.countP fun l => l.1 = i := by
    rw [successors_ofLinks, List.length_map, List.countP_eq_length_filter]
  simp only [id_eq] at hnodes hone
  unfold owed
  omega

/-- A node that is not new owes nothing. -/
theorem owed_set_le (links : List (Fin n × Fin n)) (marks : Vector α n) (i : Fin n)
    (ha : new a = false) : owed links new (marks.set i a i.isLt) ≤ owed links new marks := by
  have hkept : ∀ j, new ((marks.set i a i.isLt).get j) = true → new (marks.get j) = true := by
    intro j hj
    rw [get_set] at hj
    split at hj
    · rw [ha] at hj
      cases hj
    · exact hj
  have hnodes := List.countP_mono_left (l := List.finRange n) fun j _ => hkept j
  have hlinks := List.countP_mono_left (l := links) fun l _ => hkept l.1
  unfold owed
  omega

end Wiring

/-! ## The traversal -/

namespace Traversal

open Wiring (owed owed_set ofLinks)

variable {n : Nat} {links : List (Fin n × Fin n)}

/-- The turns that a traversal has left. -/
def left (links : List (Fin n × Fin n)) (t : Traversal n) : Nat :=
  Visit.work t.stack + owed links (!·) t.seen

theorem left_turn (t next : Traversal n) (h : t.turn (ofLinks links) = .again next) :
    left links next < left links t := by
  unfold turn at h
  split at h
  · cases h
  · rename_i heq
    cases h
    simp only [left, heq, Visit.work]
    omega
  · rename_i node next more stack heq
    split at h
    · cases h
      simp only [left, heq, Visit.work, List.length_cons]
      omega
    · rename_i hs
      cases h
      -- what the new node owed is the work that it puts on the stack
      have hpaid : owed links (!·) (t.seen.set next true next.isLt) + _ = _ :=
        owed_set links (by simpa using hs) rfl
      simp only [left, heq, Visit.work, List.length_cons]
      omega

theorem ends_run (w : Wiring n) (t : Traversal n) : ∃ turns, Turn.Ends (turn w) t turns (run w t) := by
  fun_induction run w t with
  | case1 t next ht ih =>
    obtain ⟨turns, h⟩ := ih
    exact ⟨turns + 1, .again ht h⟩
  | case2 t answer ht => exact ⟨0, .stop ht⟩

end Traversal

/-! ## The search for a cycle -/

namespace CycleSearch

open Wiring (owed owed_set owed_set_le ofLinks)

variable {n : Nat} {links : List (Fin n × Fin n)}

/-- The turns that a search has left. -/
def left (links : List (Fin n × Fin n)) (s : CycleSearch n) : Nat :=
  Visit.work s.stack + owed links (· = .white) s.colours

theorem left_turn (s next : CycleSearch n) (h : s.turn (ofLinks links) = .again next) :
    left links next < left links s := by
  unfold turn at h
  split at h
  · cases h
  · rename_i node stack heq
    cases h
    have hkept : owed links (· = .white) (s.colours.set node .black node.isLt) ≤ _ :=
      owed_set_le links s.colours node rfl
    simp only [left, heq, Visit.work]
    omega
  · rename_i node next more stack heq
    split at h
    · rename_i hc
      cases h
      have hpaid : owed links (· = .white) (s.colours.set next .gray next.isLt) + _ = _ :=
        owed_set links (decide_eq_true hc) rfl
      simp only [left, heq, Visit.work, List.length_cons]
      omega
    · cases h
    · cases h
      simp only [left, heq, Visit.work, List.length_cons]
      omega

theorem ends_run (w : Wiring n) (s : CycleSearch n) : ∃ turns, Turn.Ends (turn w) s turns (run w s) := by
  fun_induction run w s with
  | case1 s next ht ih =>
    obtain ⟨turns, h⟩ := ih
    exact ⟨turns + 1, .again ht h⟩
  | case2 s answer ht => exact ⟨0, .stop ht⟩

end CycleSearch

end PipeScript
