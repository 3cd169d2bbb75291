-- The laws of the traversal. `Visits` tells what it does without a stack: it goes through a
-- list of nodes and, at each one that is new, through its successors first. So from one node
-- it finishes all that the node reaches, each node once.
import PipeScript.Pipeline.Traversal
import PipeScript.Proofs.Pipeline.Ways

namespace PipeScript

open Relation (TransGen ReflTransGen)

namespace Traversal

variable {n : Nat} {w : Wiring n}

/-! ## Visits without a stack -/

/-- Going through a list of nodes: a node that has been seen is skipped, any other one is
finished behind everything new that its successors lead to. -/
inductive Visits (w : Wiring n) : Answer n → List (Fin n) → Answer n → Prop
  | done (a : Answer n) : Visits w a [] a
  | skip {a b : Answer n} {next : Fin n} {more : List (Fin n)} :
      a.1.get next = true → Visits w a more b → Visits w a (next :: more) b
  | enter {a b c : Answer n} {next : Fin n} {more : List (Fin n)} :
      a.1.get next = false →
      Visits w (a.1.set next true next.isLt, a.2) (w.successors.get next) b →
      Visits w (b.1, next :: b.2) more c → Visits w a (next :: more) c

theorem run_again {t next : Traversal n} (h : t.turn w = .again next) : run w t = run w next := by
  rw [run]
  split
  · rename_i next' h'
    rw [h] at h'
    cases h'
    rfl
  · rename_i answer h'
    rw [h] at h'
    cases h'

theorem run_stop {t : Traversal n} {answer : Answer n} (h : t.turn w = .stop answer) :
    run w t = answer := by
  rw [run]
  split
  · rename_i next' h'
    rw [h] at h'
    cases h'
  · rename_i answer' h'
    rw [h] at h'
    cases h'
    rfl

/-- What the innermost node still has to follow is visited, and then the node is finished. -/
theorem run_visits (seen : Vector Bool n) (finished : List (Fin n)) (node : Fin n)
    (rest : List (Fin n)) (stack : List (Visit n)) :
    ∃ b, Visits w (seen, finished) rest b ∧ unseen b.1 ≤ unseen seen ∧
      run w ⟨seen, (node, rest) :: stack, finished⟩ = run w ⟨b.1, stack, node :: b.2⟩ := by
  match rest with
  | [] => exact ⟨(seen, finished), .done _, Nat.le_refl _, run_again rfl⟩
  | next :: more =>
    by_cases hs : seen.get next = true
    · obtain ⟨b, hb, hle, hrun⟩ := run_visits seen finished node more stack
      refine ⟨b, .skip hs hb, hle, ?_⟩
      rw [← hrun]
      apply run_again
      simp [turn, hs]
    · have hs : seen.get next = false := by simpa using hs
      have hless := unseen_set seen next hs
      obtain ⟨b, hb, hle, hrun⟩ := run_visits (seen.set next true next.isLt) finished next
        (w.successors.get next) ((node, more) :: stack)
      obtain ⟨c, hc, hle', hrun'⟩ := run_visits b.1 (next :: b.2) node more stack
      refine ⟨c, .enter hs hb hc, by omega, ?_⟩
      rw [← hrun', ← hrun]
      apply run_again
      simp [turn, hs]
termination_by (unseen seen, rest.length)
decreasing_by
  · exact Prod.Lex.right _ (by simp)
  · exact Prod.Lex.left _ _ hless
  · exact Prod.Lex.left _ _ (by omega)

theorem visit_visits (a : Answer n) (start : Fin n) : Visits w a [start] (visit w a start) := by
  unfold visit
  split
  · rename_i hs
    exact .skip hs (.done _)
  · rename_i hs
    obtain ⟨b, hb, _, hrun⟩ := run_visits (w := w) (a.1.set start true start.isLt) a.2 start
      (w.successors.get start) []
    rw [hrun, run_stop rfl]
    exact .enter (by simpa using hs) hb (.done _)

/-! ## What is seen -/

variable {a b : Answer n} {list : List (Fin n)}

theorem get_mark (seen : Vector Bool n) (i j : Fin n) :
    (seen.set i true i.isLt).get j = true ↔ j = i ∨ seen.get j = true := by
  rw [Wiring.get_set]
  by_cases h : i = j
  · simp [h]
  · simp [h, Ne.symm h]

/-- What has been seen stays seen. -/
theorem Visits.kept (h : Visits w a list b) {i : Fin n} (hi : a.1.get i = true) :
    b.1.get i = true := by
  induction h with
  | done a => exact hi
  | skip _ _ ih => exact ih hi
  | enter _ _ _ ih1 ih2 => exact ih2 (ih1 ((get_mark _ _ _).mpr (Or.inr hi)))

/-- Everything in the list is seen. -/
theorem Visits.met (h : Visits w a list b) {i : Fin n} (hi : i ∈ list) : b.1.get i = true := by
  induction h with
  | done a => cases hi
  | skip hs hrest ih =>
    rcases List.mem_cons.mp hi with rfl | hi
    · exact hrest.kept hs
    · exact ih hi
  | enter _ hin hrest _ ih2 =>
    rcases List.mem_cons.mp hi with rfl | hi
    · exact hrest.kept (hin.kept ((get_mark _ _ _).mpr (Or.inl rfl)))
    · exact ih2 hi

/-- What is new is reached from the list. -/
theorem Visits.reached (h : Visits w a list b) {i : Fin n} (hi : b.1.get i = true) :
    a.1.get i = true ∨ ∃ j ∈ list, ReflTransGen w.Leads j i := by
  induction h with
  | done a => exact Or.inl hi
  | skip _ _ ih =>
    rcases ih hi with h | ⟨j, hj, hway⟩
    · exact Or.inl h
    · exact Or.inr ⟨j, List.mem_cons_of_mem _ hj, hway⟩
  | @enter a b c next more _ _ _ ih1 ih2 =>
    rcases ih2 hi with h | ⟨j, hj, hway⟩
    · rcases ih1 h with h | ⟨j, hj, hway⟩
      · rcases (get_mark _ _ _).mp h with rfl | h
        · exact Or.inr ⟨i, List.mem_cons_self, .refl⟩
        · exact Or.inl h
      · exact Or.inr ⟨next, List.mem_cons_self, .head hj hway⟩
    · exact Or.inr ⟨j, List.mem_cons_of_mem _ hj, hway⟩

/-- All that a new node leads to is seen. -/
theorem Visits.closed (h : Visits w a list b) {i j : Fin n} (hi : b.1.get i = true)
    (hnew : a.1.get i = false) (hij : w.Leads i j) : b.1.get j = true := by
  induction h with
  | done a =>
    rw [hi] at hnew
    cases hnew
  | skip _ _ ih => exact ih hi hnew
  | @enter a b c next more _ hin hrest ih1 ih2 =>
    by_cases hb : b.1.get i = true
    · apply hrest.kept
      by_cases hn : i = next
      · subst hn
        exact hin.met hij
      · apply ih1 hb
        rw [Wiring.get_set, if_neg (Ne.symm hn)]
        exact hnew
    · exact ih2 hi (by simpa using hb)

/-- The nodes that are finished are those that are new, each once. -/
theorem Visits.finished (h : Visits w a list b) :
    ∃ new, b.2 = new ++ a.2 ∧ new.Nodup ∧ ∀ i, i ∈ new ↔ b.1.get i = true ∧ a.1.get i = false := by
  induction h with
  | done a => exact ⟨[], rfl, List.nodup_nil, by simp⟩
  | skip _ _ ih => exact ih
  | @enter a b c next more hs hin hrest ih1 ih2 =>
    obtain ⟨new1, heq1, hnd1, hmem1⟩ := ih1
    obtain ⟨new2, heq2, hnd2, hmem2⟩ := ih2
    have hnext : b.1.get next = true := hin.kept ((get_mark _ _ _).mpr (Or.inl rfl))
    have hmark : ∀ i, (a.1.set next true next.isLt).get i = false ↔
        i ≠ next ∧ a.1.get i = false := by
      intro i
      rw [← Bool.not_eq_true, get_mark]
      simp
    -- the new nodes are those of the rest, the node itself, and those of its successors
    refine ⟨new2 ++ next :: new1, by simp [heq1, heq2], ?_, ?_⟩
    · rw [List.nodup_append, List.nodup_cons]
      refine ⟨hnd2, ⟨fun hm => ?_, hnd1⟩, ?_⟩
      · exact ((hmark next).mp ((hmem1 next).mp hm).2).1 rfl
      · rintro i hi j hj rfl
        have hbi := ((hmem2 i).mp hi).2
        rcases List.mem_cons.mp hj with rfl | hj
        · rw [hnext] at hbi
          cases hbi
        · rw [((hmem1 i).mp hj).1] at hbi
          cases hbi
    · intro i
      rw [List.mem_append, List.mem_cons, hmem2, hmem1]
      simp only [hmark]
      constructor
      · rintro (⟨hc, hb⟩ | rfl | ⟨hb, _, ha⟩)
        · refine ⟨hc, ?_⟩
          by_contra ha
          have ha : a.1.get i = true := by simpa using ha
          rw [hin.kept ((get_mark _ _ _).mpr (Or.inr ha))] at hb
          cases hb
        · exact ⟨hrest.kept hnext, hs⟩
        · exact ⟨hrest.kept hb, ha⟩
      · rintro ⟨hc, ha⟩
        by_cases hn : i = next
        · exact Or.inr (Or.inl hn)
        · by_cases hb : b.1.get i = true
          · exact Or.inr (Or.inr ⟨hb, hn, ha⟩)
          · exact Or.inl ⟨hc, by simpa using hb⟩

/-! ## From one node -/

@[simp] theorem nothing_seen (i : Fin n) : (nothing : Answer n).1.get i = false :=
  Vector.getElem_replicate _

/-- A traversal from one node sees what the node reaches. -/
theorem visit_seen (root i : Fin n) :
    (visit w nothing root).1.get i = true ↔ ReflTransGen w.Leads root i := by
  have hv : Visits w nothing [root] (visit w nothing root) := visit_visits nothing root
  constructor
  · intro hi
    rcases hv.reached hi with h | ⟨j, hj, hway⟩
    · simp at h
    · rw [List.mem_singleton] at hj
      exact hj ▸ hway
  · intro hway
    induction hway with
    | refl => exact hv.met List.mem_cons_self
    | tail _ hjk ih => exact hv.closed ih (nothing_seen _) hjk

/-- A traversal from one node finishes what the node reaches, each node once. -/
theorem visit_finished (root : Fin n) :
    (visit w nothing root).2.Nodup ∧
    ∀ i, i ∈ (visit w nothing root).2 ↔ ReflTransGen w.Leads root i := by
  obtain ⟨new, heq, hnd, hmem⟩ := (visit_visits (w := w) nothing root).finished
  have hnew : (visit w nothing root).2 = new := by simpa [nothing] using heq
  rw [hnew]
  refine ⟨hnd, fun i => ?_⟩
  rw [hmem, visit_seen]
  simp

/-- Where no node has two successors, the nodes are finished along one way. -/
theorem Visits.straight (h : Visits w a list b) (hone : ∀ i, (w.successors.get i).length ≤ 1)
    (hlist : list.length ≤ 1) :
    ∃ new, b.2 = new ++ a.2 ∧ new.IsChain (fun i j => w.successors.get i = [j]) ∧
      ∀ i ∈ new.head?, list = [i] := by
  induction h with
  | done a => exact ⟨[], rfl, List.isChain_nil, by simp⟩
  | @skip a b next more _ hrest _ =>
    have hmore : more = [] := by simpa using hlist
    subst hmore
    cases hrest
    exact ⟨[], rfl, List.isChain_nil, by simp⟩
  | @enter a b c next more _ _ hrest ih _ =>
    have hmore : more = [] := by simpa using hlist
    subst hmore
    cases hrest
    obtain ⟨new, heq, hchain, hhead⟩ := ih (hone next)
    exact ⟨next :: new, by simp [heq], List.isChain_cons.mpr ⟨hhead, hchain⟩, by simp⟩

end Traversal

end PipeScript
