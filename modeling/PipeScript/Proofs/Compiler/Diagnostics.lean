-- The comment in the place of a script. It starts with its mark, and its own words have no line
-- break, but it takes ids over as they are: it stays on one line exactly as long as every id
-- that it names does.
import PipeScript.Compiler
import PipeScript.Proofs.Pipeline.Verdicts

namespace PipeScript

open Script (Settings)

/-! ## Texts on one line -/

namespace Text

/-- Nothing in the text ends a line. -/
def OnOneLine (s : String) : Prop := '\n' ∉ s.toList ∧ '\r' ∉ s.toList

instance (s : String) : Decidable (OnOneLine s) :=
  inferInstanceAs (Decidable ('\n' ∉ s.toList ∧ '\r' ∉ s.toList))

theorem onOneLine_append (a b : String) : OnOneLine (a ++ b) ↔ OnOneLine a ∧ OnOneLine b := by
  unfold OnOneLine
  simp only [String.toList_append, List.mem_append, not_or]
  exact and_and_and_comm

theorem onOneLine_intercalate {sep : String} (hsep : OnOneLine sep) (parts : List String) :
    OnOneLine (sep.intercalate parts) ↔ ∀ part ∈ parts, OnOneLine part := by
  induction parts with
  | nil => simp [OnOneLine]
  | cons first rest ih =>
    cases rest with
    | nil => simp
    | cons second rest =>
      rw [String.intercalate_cons_cons, onOneLine_append, onOneLine_append, ih,
        List.forall_mem_cons]
      simp [hsep]

theorem onOneLine_toDigits (n : Nat) : OnOneLine (String.ofList (Nat.toDigits 10 n)) := by
  have hdigit : ∀ c ∈ Nat.toDigits 10 n, c.isDigit = true :=
    fun c hc => Nat.isDigit_of_mem_toDigits (by decide) (by decide) hc
  unfold OnOneLine
  rw [String.toList_ofList]
  exact ⟨fun h => absurd (hdigit _ h) (by decide), fun h => absurd (hdigit _ h) (by decide)⟩

end Text

namespace Flaw

open Text

/-- The words of a message have no line break of their own. -/
theorem onOneLine_message (flaw : Flaw) :
    OnOneLine flaw.message ↔ ∀ id ∈ flaw.named, OnOneLine id := by
  have hcomma : OnOneLine ", " := by decide
  have harrow : OnOneLine " -> " := by decide
  unfold message named
  cases flaw <;>
    simp +decide only [onOneLine_append, onOneLine_intercalate hcomma,
      onOneLine_intercalate harrow, onOneLine_toDigits, List.forall_mem_append,
      List.forall_mem_cons, true_and, and_true]

end Flaw

/-! ## The law -/

namespace Compiler

open Text

theorem tryCompile_eq_error {c : Compiler} {p : Pipeline} {settings : Settings} {flaw : Flaw} :
    c.tryCompile p settings = .error flaw ↔ p.check = .error flaw := by
  unfold tryCompile
  rcases p.check with flaw' | order
  · simp [bind, Except.bind]
  · simp [bind, Except.bind, pure, Except.pure]

/-- A pipeline that is refused compiles to a comment. It is a single line if no id that the flaw
names has a line break, and only then; and these ids are ids of nodes and ends of edges, just
as they stand in the pipeline. -/
theorem a_refusal_is_one_line_as_long_as_its_ids_are (c : Compiler) (p : Pipeline)
    (settings : Settings) (flaw : Flaw) (h : c.tryCompile p settings = .error flaw) :
    (∃ text, c.compile p settings = "# ❌ " ++ text) ∧
    (OnOneLine (c.compile p settings) ↔ ∀ id ∈ flaw.named, OnOneLine id) ∧
    (∀ id ∈ flaw.named, id ∈ p.ids ∨ ∃ edge ∈ p.edges, id = edge.source ∨ id = edge.target) := by
  have hcompile : c.compile p settings = "# ❌ " ++ flaw.message := by
    unfold compile
    rw [h]
    rfl
  refine ⟨⟨_, hcompile⟩, ?_, ?_⟩
  · rw [hcompile, onOneLine_append, Flaw.onOneLine_message]
    exact and_iff_right (by decide)
  · exact (Pipeline.verdict_of_check_eq_error (tryCompile_eq_error.mp h)).2

/-- A pipeline whose first and last node have the same id. -/
def echo (id : String) : Pipeline where
  nodes := [⟨id, .input "in"⟩, ⟨"sort", .command "sort" .empty⟩, ⟨id, .output "out" false⟩]
  edges := [⟨id, "sort", none⟩]

theorem tryCompile_echo (c : Compiler) (settings : Settings) (id : String) (h : id ≠ "sort") :
    c.tryCompile (echo id) settings = .error (.duplicateNode id) := by
  rw [tryCompile_eq_error]
  apply Pipeline.check_of_ofPipeline_error
  unfold Wiring.ofPipeline
  rw [show firstRepeat ∅ ((echo id).nodes.map (·.id)) = some id by
    simp [echo, firstRepeat, h]]

theorem an_id_used_twice_is_reported_on_one_line :
    default.tryCompile (echo "load") .default = .error (.duplicateNode "load") ∧
      OnOneLine (default.compile (echo "load") .default) := by
  have hrefused := tryCompile_echo default .default "load" (by decide)
  obtain ⟨_, hline, _⟩ := a_refusal_is_one_line_as_long_as_its_ids_are default _ _ _ hrefused
  exact ⟨hrefused, hline.mpr (by decide)⟩

/-- A refusal is not always one line: what follows a line break in an id stands outside the
comment. -/
theorem a_refusal_can_leave_its_comment :
    ¬ ∀ (c : Compiler) (p : Pipeline) (settings : Settings) (flaw : Flaw),
      c.tryCompile p settings = .error flaw →
      (∃ text, c.compile p settings = "# ❌ " ++ text) ∧ OnOneLine (c.compile p settings) := by
  intro hall
  have hrefused := tryCompile_echo default .default "a\nrm -rf x" (by decide)
  have hline := (hall default _ _ _ hrefused).2
  unfold compile at hline
  rw [hrefused] at hline
  revert hline
  decide +kernel

end Compiler

end PipeScript
