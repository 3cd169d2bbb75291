-- What a shell sees in a body: the words of each node in their order, with the operators
-- that the assembly puts between them, and nothing else. A path or a value is one word, a
-- comment is no token, and no text of a node can end a quote, a word or a comment early.
import PipeScript.Compiler
import PipeScript.Proofs.Pipeline.Lines
import PipeScript.Proofs.Script.Argv
import PipeScript.Proofs.Script.Layout

namespace PipeScript

namespace Script

open Shell (Reads Spells Fills)

/-! ## The tokens of a body -/

/-- What a fragment is meant to be. -/
inductive Piece where
  | command (argv : List String) (pipesOnward : Bool)
  | redirect (path : String) (append : Bool)
  | comment
  deriving DecidableEq, Repr

/-- Where a body stands between two pieces. -/
inductive Place where
  /-- There is no chain to add to, and the next line is some line ends away. -/
  | idle (breaks : Nat)
  /-- The last command gives no output. -/
  | ended
  /-- The last command pipes onward; comments wait behind it. -/
  | piping (comments : Nat)
  deriving DecidableEq, Repr

/-- The tokens of a piece itself. -/
def Piece.tokens : Piece → List Shell.Token
  | .command argv _ => asWords argv
  | .redirect path append => [.redirect append, .word path]
  | .comment => []

def lineEnds (count : Nat) : List Shell.Token := List.replicate count .newline

namespace Place

/-- How many line ends away a new line is. -/
def breaks : Place → Nat
  | .idle breaks => breaks
  | .ended => 1
  | .piping comments => comments + 1

/-- What the assembly puts in front of a piece. A redirect that has no command gets one that
does nothing. -/
def before : Place → Piece → List Shell.Token
  | .piping comments, .command _ _ =>
    .pipe :: if comments = 0 then [] else lineEnds (comments + 1)
  | place, .command _ _ => lineEnds place.breaks
  | .idle breaks, .redirect _ _ => lineEnds breaks ++ [.word ":"]
  | _, _ => []

/-- Where a body stands behind a piece. -/
def next : Place → Piece → Place
  | _, .command _ pipesOnward => if pipesOnward then .piping 0 else .ended
  | .piping comments, .redirect _ _ => .idle (comments + 1)
  | _, .redirect _ _ => .idle 1
  | .idle breaks, .comment => .idle (breaks + 1)
  | .ended, .comment => .idle 2
  | .piping comments, .comment => .piping (comments + 1)

end Place

/-- The tokens of pieces from a place on. Behind the last one only comments are left, one
line end in front of each. -/
def tokensFrom (place : Place) : List Piece → List Shell.Token
  | [] => lineEnds (place.breaks - 1)
  | piece :: rest => place.before piece ++ piece.tokens ++ tokensFrom (place.next piece) rest

/-- The tokens of a whole body. -/
def tokens : List Piece → List Shell.Token := tokensFrom (.idle 0)

/-- The fragment is a way to write the piece. -/
def Fragment.Means (fragment : Fragment) : Piece → Prop
  | .command argv pipesOnward => Runs fragment argv pipesOnward
  | .redirect path append => fragment = .redirect path append
  | .comment => ∃ text, fragment = .placeholder ("#" ++ text)

/-! ## Lines -/

@[simp] theorem lineEnds_zero : lineEnds 0 = [] := rfl

theorem lineEnds_succ (count : Nat) : lineEnds (count + 1) = lineEnds count ++ [.newline] :=
  List.replicate_succ'

/-- Finished lines, the last one first, each with its line end. -/
def front : List Line → List Char
  | [] => []
  | last :: lines => front lines ++ (last.render.toList ++ ['\n'])

/-- What lines say, the last one first. There is no line end behind the last one. -/
def LinesSay : List Line → List Shell.Token → Prop
  | [], said => said = []
  | last :: lines, said => Fills (front lines ++ last.render.toList) said

theorem toList_render_lines (last : Line) (lines : List Line) :
    ("\n".intercalate ((last :: lines).reverse.map Line.render)).toList
      = front lines ++ last.render.toList := by
  induction lines generalizing last with
  | nil => simp [front]
  | cons before lines ih =>
    have hne : (before :: lines).reverse.map Line.render ≠ [] := by simp
    rw [List.reverse_cons, List.map_append,
      String.intercalate_append_of_ne_nil hne (by simp), String.toList_append,
      String.toList_append, ih before]
    simp [front]

theorem LinesSay.lex {lines : List Line} {said : List Shell.Token} (h : LinesSay lines said) :
    Shell.lex ("\n".intercalate (lines.reverse.map Line.render)) = .ok said := by
  apply Shell.lex_of_fills
  cases lines with
  | nil =>
    rw [show said = [] from h]
    exact Shell.spells_nil.fills
  | cons last lines =>
    rw [toList_render_lines]
    exact h

/-- The last line gets its line end. -/
theorem LinesSay.reads {lines : List Line} {said : List Shell.Token} {count : Nat}
    (h : LinesSay lines (said ++ lineEnds count)) (hne : lines ≠ []) :
    Reads (front lines) (said ++ lineEnds (count + 1)) := by
  cases lines with
  | nil => exact absurd rfl hne
  | cons last lines =>
    rw [front, ← List.append_assoc, lineEnds_succ, ← List.append_assoc]
    exact h.newline

/-- Comments behind other lines are line ends to the shell. -/
theorem LinesSay.comments {lines : List Line} {said : List Shell.Token} (h : LinesSay lines said)
    (hne : lines ≠ []) {comments : List String}
    (hcomments : ∀ text ∈ comments, Fills text.toList []) :
    LinesSay (comments.map .comment ++ lines) (said ++ lineEnds comments.length) := by
  induction comments with
  | nil => simpa using h
  | cons text comments ih =>
    have hrest := ih fun other hm => hcomments other (List.mem_cons_of_mem text hm)
    have hfills := (hrest.reads (by simp [hne])).fills (hcomments text List.mem_cons_self)
    rw [List.append_nil] at hfills
    exact hfills

/-! ## Chains -/

variable {a : List Char} {said : List Shell.Token} {text : String} {argv : List String}

theorem reads_comments {comments : List String} (h : ∀ text ∈ comments, Fills text.toList []) :
    Reads (String.join (comments.map (· ++ "\n"))).toList
      (lineEnds comments.length) := by
  induction comments with
  | nil => simpa using Shell.reads_nil
  | cons text comments ih =>
    have hrest := ih fun other hm => h other (List.mem_cons_of_mem text hm)
    simpa [String.toList_join, lineEnds, List.replicate_succ] using
      (h text List.mem_cons_self).newline.append hrest

/-- A stage behind another one. -/
theorem spells_joined {comments : List String} (ha : Spells a said)
    (hcomments : ∀ text ∈ comments, Fills text.toList [])
    (htext : Spells text.toList (asWords argv)) (pipesOnward : Bool) :
    Spells (a ++ (Stage.joined ⟨comments, text⟩).toList)
      (said ++ ((Place.piping comments.length).before (.command argv pipesOnward)
        ++ asWords argv)) := by
  cases comments with
  | nil =>
    have hpipe := ha.blank.spells Shell.spells_pipe
    simpa [Stage.joined, Place.before] using hpipe.join htext
  | cons first rest =>
    -- The line ends behind the pipe, and each comment has a line of its own.
    have hpipe := (ha.blank.spells Shell.spells_pipe).fills.newline
    have hspells := (hpipe.append (reads_comments hcomments)).spells htext
    simpa [Stage.joined, Place.before, lineEnds, List.replicate_succ] using hspells

theorem spells_redirect (r : Redirect) :
    Spells r.render.toList [.redirect r.append, .word r.path] := by
  have hspells := (Shell.spells_redirect r.append).join (Shell.spells_doubleQuote r.path)
  unfold Redirect.render
  cases happend : r.append with
  | false => simpa [happend] using hspells
  | true => simpa [happend] using hspells

/-- The last chain, and the comments that wait behind it. -/
structure ChainSays (lines : List Line) (c : OpenChain) (said : List Shell.Token) : Prop where
  stages : c.stages ≠ []
  spells : Spells (front lines ++ (chainText c.stages.reverse).toList) said
  comments : ∀ text ∈ c.comments, Fills text.toList []

namespace ChainSays

variable {lines : List Line} {c : OpenChain}

/-- A chain of one command. -/
theorem single (h : Reads (front lines) said) (htext : Spells text.toList (asWords argv))
    (pipes : Bool) : ChainSays lines ⟨[⟨[], text⟩], pipes, []⟩ (said ++ asWords argv) where
  stages := by simp
  spells := by simpa [chainText] using h.spells htext
  comments := by simp

theorem join (h : ChainSays lines c said) (htext : Spells text.toList (asWords argv))
    (pipes : Bool) : ChainSays lines ⟨⟨c.comments.reverse, text⟩ :: c.stages, pipes, []⟩
      (said ++ ((Place.piping c.comments.length).before (.command argv pipes)
        ++ asWords argv)) where
  stages := by simp
  spells := by
    have hcomments : ∀ text ∈ c.comments.reverse, Fills text.toList [] :=
      fun text hm => h.comments text (List.mem_reverse.mp hm)
    have hspells := spells_joined h.spells hcomments htext pipes
    rw [List.length_reverse] at hspells
    rw [List.reverse_cons, chainText_append (by simpa using h.stages), String.toList_append,
      ← List.append_assoc]
    exact hspells
  comments := by simp

theorem close (h : ChainSays lines c said) :
    LinesSay (Assembly.chainLines c none ++ lines)
      (said ++ lineEnds c.comments.length) := by
  have hline : LinesSay (.chain c.stages.reverse none :: lines) said := h.spells.fills
  simpa [Assembly.chainLines] using hline.comments (by simp) h.comments

theorem redirect (h : ChainSays lines c said) (r : Redirect) :
    LinesSay (Assembly.chainLines c (some r) ++ lines)
      (said ++ [.redirect r.append, .word r.path]
        ++ lineEnds c.comments.length) := by
  have hline : LinesSay (.chain c.stages.reverse (some r) :: lines)
      (said ++ [.redirect r.append, .word r.path]) := by
    simpa [LinesSay, Line.render] using (h.spells.join (spells_redirect r)).fills
  simpa [Assembly.chainLines] using hline.comments (by simp) h.comments

end ChainSays

/-! ## The assembly -/

/-- A body under construction stands at a place, and what it says up to there. -/
inductive Stands : Assembly → Place → List Shell.Token → Prop
  | start : Stands .empty (.idle 0) []
  | idle {lines : List Line} {said : List Shell.Token} {more : Nat} : lines ≠ [] →
      LinesSay lines (said ++ lineEnds more) →
      Stands ⟨lines, none⟩ (.idle (more + 1)) said
  | ended {lines : List Line} {c : OpenChain} {said : List Shell.Token} :
      ChainSays lines c said → c.pipes = false → c.comments = [] →
      Stands ⟨lines, some c⟩ .ended said
  | piping {lines : List Line} {c : OpenChain} {said : List Shell.Token} :
      ChainSays lines c said → c.pipes = true →
      Stands ⟨lines, some c⟩ (.piping c.comments.length) said

/-- A chain that has just got a command. -/
theorem stands_of_chain {lines : List Line} {stages : List Stage} {pipes : Bool}
    (h : ChainSays lines ⟨stages, pipes, []⟩ said) :
    Stands ⟨lines, some ⟨stages, pipes, []⟩⟩ (if pipes then .piping 0 else .ended) said := by
  cases pipes with
  | false => exact .ended h rfl rfl
  | true => exact .piping h rfl

namespace Stands

variable {s : Assembly} {place : Place}

/-- The lines if nothing follows. -/
theorem linesSay (h : Stands s place said) :
    LinesSay s.closed (said ++ lineEnds (place.breaks - 1)) := by
  cases h with
  | start => rfl
  | idle _ hsay => exact hsay
  | ended hsay _ hnone =>
    have hclose := hsay.close
    rw [hnone] at hclose
    exact hclose
  | piping hsay _ => exact hsay.close

/-- The lines if more of them follow. -/
theorem reads (h : Stands s place said) :
    Reads (front s.closed) (said ++ lineEnds place.breaks) := by
  have hlines := h.linesSay
  cases h with
  | start => exact Shell.reads_nil
  | idle hne _ => exact hlines.reads hne
  | ended _ _ _ => exact hlines.reads (by simp [Assembly.closed, Assembly.chainLines])
  | piping _ _ => exact hlines.reads (by simp [Assembly.closed, Assembly.chainLines])

theorem command (h : Stands s place said) (htext : Spells text.toList (asWords argv))
    (pipes : Bool) :
    Stands (s.pushCommand text pipes) (place.next (.command argv pipes))
      (said ++ (place.before (.command argv pipes) ++ asWords argv)) := by
  have hnew := stands_of_chain (.single h.reads htext pipes)
  rw [List.append_assoc] at hnew
  cases h with
  | start => exact hnew
  | idle _ _ => exact hnew
  | ended _ hpipes _ =>
    unfold Assembly.pushCommand
    simp only [hpipes, Bool.false_eq_true, if_false]
    exact hnew
  | piping hsay hpipes =>
    unfold Assembly.pushCommand
    simp only [hpipes, if_true]
    exact stands_of_chain (hsay.join htext pipes)

/-- A redirect with no chain in front of it. -/
theorem touch {lines : List Line} {more : Nat} (h : Stands ⟨lines, none⟩ (.idle more) said)
    (r : Redirect) : Stands ⟨.touch r :: lines, none⟩ (.idle 1)
      (said ++ ((Place.idle more).before (.redirect r.path r.append)
        ++ [.redirect r.append, .word r.path])) := by
  have hcolon := Shell.spells_plainWord (s := ":") (by decide)
  have hfills := h.reads.fills (hcolon.join (spells_redirect r)).fills
  refine .idle (by simp) ?_
  simpa [LinesSay, Line.render, Place.before, Place.breaks, Assembly.closed] using hfills

theorem redirect (h : Stands s place said) (path : String) (append : Bool) :
    Stands (s.pushRedirect ⟨path, append⟩) (place.next (.redirect path append))
      (said ++ (place.before (.redirect path append) ++ [.redirect append, .word path])) := by
  cases h with
  | start => exact Stands.start.touch ⟨path, append⟩
  | idle hne hsay => exact (Stands.idle hne hsay).touch ⟨path, append⟩
  | ended hsay _ hnone =>
    have hline := hsay.redirect ⟨path, append⟩
    rw [hnone] at hline
    exact .idle (by simp [Assembly.chainLines]) hline
  | piping hsay _ => exact .idle (by simp [Assembly.chainLines]) (hsay.redirect ⟨path, append⟩)

theorem comment (h : Stands s place said) (htext : Fills text.toList []) :
    Stands (s.pushComment text) (place.next .comment) said := by
  have hline := h.reads.fills htext
  rw [List.append_nil] at hline
  cases h with
  | start => exact .idle (by simp) hline
  | idle _ _ => exact .idle (by simp) hline
  | ended _ hpipes _ =>
    unfold Assembly.pushComment
    simp only [hpipes, Bool.false_eq_true, if_false]
    exact .idle (by simp) hline
  | @piping _ c _ hsay hpipes =>
    have hcomments : ∀ other ∈ text :: c.comments, Fills other.toList [] :=
      List.forall_mem_cons.mpr ⟨htext, hsay.comments⟩
    unfold Assembly.pushComment
    simp only [hpipes, if_true]
    exact .piping ⟨hsay.stages, hsay.spells, hcomments⟩ rfl

/-- One more fragment says what its piece says. -/
theorem push {fragment : Fragment} {piece : Piece} (h : Stands s place said)
    (hmeans : fragment.Means piece) :
    Stands (s.push fragment) (place.next piece)
      (said ++ (place.before piece ++ piece.tokens)) := by
  cases piece with
  | command argv pipesOnward =>
    obtain ⟨text, rfl, hspells⟩ := hmeans
    exact h.command hspells pipesOnward
  | redirect path append =>
    rw [show fragment = .redirect path append from hmeans]
    exact h.redirect path append
  | comment =>
    obtain ⟨text, rfl⟩ := hmeans
    have hcomment := h.comment (Shell.fills_flatten text)
    simpa [Assembly.push, Place.before, Piece.tokens] using hcomment

/-- All fragments say what their pieces say. -/
theorem run {fragments : List Fragment} {pieces : List Piece} (h : Stands s place said)
    (hmeans : List.Forall₂ Fragment.Means fragments pieces) :
    LinesSay (fragments.foldl Assembly.push s).closed (said ++ tokensFrom place pieces) := by
  induction hmeans generalizing s place said with
  | nil => exact h.linesSay
  | cons hfirst _ ih =>
    rw [List.foldl_cons, tokensFrom, ← List.append_assoc]
    exact ih (h.push hfirst)

end Stands

theorem lex_body {fragments : List Fragment} {pieces : List Piece}
    (h : List.Forall₂ Fragment.Means fragments pieces) :
    Shell.lex (body fragments) = .ok (tokens pieces) :=
  (Stands.start.run h).lex

end Script

/-! ## Nodes -/

open Command (Registry)
open Script (Runs Settings)

namespace Node

/-- Whether no field of the node is shell code. -/
def isSimple (node : Node) : Bool :=
  match node.kind with
  | .input _ | .output _ _ => true
  | .command commandId _ => !Script.isControl commandId
  | .conditional _ | .forLoop _ _ | .whileLoop _ => false

/-- What a node is meant to be: a comment where something is missing, and otherwise its words
or its file. -/
def piece (node : Node) : Script.Piece :=
  match node.kind with
  | .input path => if Text.isBlank path then .comment else .command ["cat", path] true
  | .output path append => if Text.isBlank path then .comment else .redirect path append
  | .command commandId params =>
    match Registry.builtin.lookup commandId with
    | none => .comment
    | some d => .command (d.argv params) d.producesOutput
  | .conditional _ | .forLoop _ _ | .whileLoop _ => .comment

theorem cat_runs (path : String) :
    Runs (.command ("cat " ++ Shell.doubleQuote path) true) ["cat", path] true := by
  refine ⟨_, rfl, ?_⟩
  have hcat := Shell.spells_plainWord (s := "cat") (by decide)
  simpa [Script.asWords] using hcat.join (Shell.spells_doubleQuote path)

theorem generate_means {node : Node} (h : node.isSimple = true) :
    (node.generate .builtin .builtin).1.Means node.piece := by
  unfold isSimple at h
  unfold generate piece
  cases hkind : node.kind with
  | input path =>
    by_cases hblank : Text.isBlank path = true
    · simp only [hblank, if_true]
      exact ⟨" input: missing path", rfl⟩
    · simp only [hblank]
      exact cat_runs path
  | output path append =>
    by_cases hblank : Text.isBlank path = true
    · simp only [hblank, if_true]
      exact ⟨" output: missing path", rfl⟩
    · simp only [hblank]
      exact rfl
  | command commandId params =>
    simp only [hkind, Bool.not_eq_true'] at h
    cases hlookup : Registry.builtin.lookup commandId with
    | none =>
      simp only [hlookup]
      exact ⟨" Unknown command: " ++ commandId, by rw [← String.append_assoc]; rfl⟩
    | some d =>
      simp only [hlookup]
      obtain ⟨hclear, hname, hid⟩ := Script.lookup_builtin hlookup
      rw [← hid] at h
      exact Script.builderFor_runs params hclear hname h
  | conditional _ => simp [hkind] at h
  | forLoop _ _ => simp [hkind] at h
  | whileLoop _ => simp [hkind] at h

end Node

/-! ## The law -/

namespace Compiler

/-- The body of every script is read without an open quote or an expansion, and what is read
are the words of the nodes in the order in which they run, with the operators of the assembly
in between. Whatever a path, a value or the id of an unknown command holds, it stays in its
word or in its comment. -/
theorem user_text_is_never_syntax (p : Pipeline) (settings : Settings) (script : Compiled)
    (h : default.tryCompile p settings = .ok script)
    (hsimple : ∀ node ∈ p.nodes, node.isSimple = true) :
    ∃ order body, p.check = .ok order ∧ script.order = order.map (·.id) ∧
      script.text = Script.wrap body settings ∧
      Shell.lex body = .ok (Script.tokens (order.map Node.piece)) := by
  unfold tryCompile at h
  cases hcheck : p.check with
  | error flaw => simp [hcheck, bind, Except.bind] at h
  | ok order =>
    simp only [hcheck, bind, Except.bind, pure, Except.pure, Except.ok.injEq] at h
    subst h
    refine ⟨order, _, rfl, rfl, rfl, ?_⟩
    apply Script.lex_body
    rw [List.map_map, List.forall₂_map_left_iff, List.forall₂_map_right_iff, List.forall₂_same]
    intro node hm
    have hperm := (Pipeline.line_of_check hcheck).2.2.1
    exact Node.generate_means (hsimple node (hperm.mem_iff.mp hm))

/-- Quotes, expansions, line ends and operators in every place that takes a text. -/
def hostile : Pipeline := .chain
  [⟨"a", .input "a\"; $(b)\\"⟩,
    ⟨"b", .command "grep" (.ofList [("pattern", .string "'\n\x7b\x7d \x60c\x60"),
      ("ignoreCase", .bool true)])⟩,
    ⟨"c", .command "d\n| e" .empty⟩,
    ⟨"d", .command "sed" (.ofList [("expression", .string "'$f' # g")])⟩,
    ⟨"e", .output "> h" true⟩]

theorem a_hostile_pipeline_is_read_as_words :
    ∃ script body, default.tryCompile hostile .default = .ok script ∧
      (∀ node ∈ hostile.nodes, node.isSimple = true) ∧
      script.text = Script.wrap body .default ∧
      Shell.lex body = .ok [.word "cat", .word "a\"; $(b)\\", .pipe, .word "grep", .word "-i",
        .word "'\n\x7b\x7d \x60c\x60", .pipe, .newline, .newline, .word "sed",
        .word "'$f' # g", .redirect true, .word "> h"] := by
  have hcheck : hostile.check = .ok hostile.nodes :=
    Pipeline.check_of_line (by decide) (by simp [hostile, Pipeline.chain]) (.refl _) (by decide)
  have hcompile : default.tryCompile hostile .default
      = .ok (default.assemble hostile.nodes .default) := by
    unfold tryCompile
    rw [hcheck]
    rfl
  have hsimple : ∀ node ∈ hostile.nodes, node.isSimple = true := by decide
  obtain ⟨order, body, horder, -, htext, hlex⟩ :=
    user_text_is_never_syntax hostile .default _ hcompile hsimple
  obtain rfl : hostile.nodes = order := by simpa [hcheck] using horder
  exact ⟨_, body, hcompile, hsimple, htext, hlex⟩

end Compiler

end PipeScript
