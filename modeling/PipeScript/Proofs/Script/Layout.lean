-- Where the assembly puts its fragments. Every command, comment and redirect is in the body
-- once and in its order. A command is piped into the next one when it gives output and no
-- redirect comes between them, and a comment has its line for itself, wherever it stands.
import PipeScript.Proofs.Shell.Quoting
import PipeScript.Script.Body

namespace PipeScript

namespace Script

/-! ## What fragments are -/

namespace Fragment

/-- The text of a command, simple or compound. -/
def text? : Fragment → Option String
  | .command text _ | .block text => some text
  | .redirect _ _ | .placeholder _ => none

/-- Whether the output of a command may go into the next one. -/
def pipes : Fragment → Bool
  | .command _ pipesOnward => pipesOnward
  | .block _ => true
  | .redirect _ _ | .placeholder _ => false

/-- The comment that a placeholder makes. -/
def comment? : Fragment → Option String
  | .placeholder text => some (Shell.flatten text)
  | .command _ _ | .block _ | .redirect _ _ => none

def redirect? : Fragment → Option Redirect
  | .redirect path append => some ⟨path, append⟩
  | .command _ _ | .block _ | .placeholder _ => none

end Fragment

/-- A command, and the comments in front of the one that its output goes into, if it goes into
any. -/
structure Joint where
  text : String
  onward : Option (List String)
  deriving DecidableEq, Repr

/-- The comments in front of the next command, unless a redirect or the end comes first. -/
def upToCommand : List Fragment → Option (List String)
  | [] | .redirect _ _ :: _ => none
  | .command _ _ :: _ | .block _ :: _ => some []
  | .placeholder text :: rest => (upToCommand rest).map (Shell.flatten text :: ·)

/-- The commands, each with what its output goes into. -/
def joints : List Fragment → List Joint
  | [] => []
  | fragment :: rest =>
    match fragment.text? with
    | some text => ⟨text, if fragment.pipes then upToCommand rest else none⟩ :: joints rest
    | none => joints rest

/-! ## What lines are -/

/-- The commands of a chain, the last of which goes on as it is told. -/
def jointsTo (onward : Option (List String)) : List Stage → List Joint
  | [] => []
  | [last] => [⟨last.text, onward⟩]
  | stage :: next :: rest => ⟨stage.text, some next.comments⟩ :: jointsTo onward (next :: rest)

/-- A comment with its line for itself, or code, which may take several lines. -/
inductive Row where
  | comment (text : String)
  | code (text : String)
  deriving DecidableEq, Repr

namespace Row

def text : Row → String
  | .comment text | .code text => text

def comment? : Row → Option String
  | .comment text => some text
  | .code _ => none

end Row

/-- What stands behind the last command of a chain. -/
def ending : Option Redirect → String
  | none => ""
  | some redirect => " " ++ redirect.render

/-- The rows of a chain, from some code on that has no end yet. -/
def chainRows (code ending : String) : List Stage → List Row
  | [] => [.code (code ++ ending)]
  | stage :: rest =>
    if stage.comments.isEmpty then chainRows (code ++ " | " ++ stage.text) ending rest
    else .code (code ++ " |") :: (stage.comments.map .comment ++ chainRows stage.text ending rest)

namespace Line

def joints : Line → List Joint
  | .chain stages _ => jointsTo none stages
  | .comment _ | .touch _ => []

def redirect? : Line → Option Redirect
  | .comment _ => none
  | .chain _ redirect => redirect
  | .touch redirect => some redirect

def rows : Line → List Row
  | .comment text => [.comment text]
  | .chain [] redirect => [.code (ending redirect)]
  | .chain (first :: rest) redirect => chainRows first.text (ending redirect) rest
  | .touch redirect => [.code (": " ++ redirect.render)]

/-- The comments of a line, those between its commands too. -/
def comments (line : Line) : List String := line.rows.filterMap Row.comment?

end Line

/-! ## Texts of chains -/

/-- What stands between two commands that are piped together. -/
def piping : List String → String
  | [] => " | "
  | comments => " |\n" ++ String.join (comments.map (· ++ "\n"))

/-- A command, and the pipe behind it. -/
def Joint.written (joint : Joint) : String :=
  match joint.onward with
  | none => joint.text
  | some comments => joint.text ++ piping comments

theorem joined_eq (stage : Stage) : stage.joined = piping stage.comments ++ stage.text := by
  unfold Stage.joined
  cases stage.comments <;> rfl

theorem chainText_append {stages : List Stage} (h : stages ≠ []) (stage : Stage) :
    chainText (stages ++ [stage]) = chainText stages ++ stage.joined := by
  cases stages with
  | nil => exact absurd rfl h
  | cons first rest => simp [chainText, String.join_append, String.append_assoc]

theorem render_chain (stages : List Stage) (redirect : Option Redirect) :
    (Line.chain stages redirect).render = chainText stages ++ ending redirect := by
  cases redirect with
  | none => simp [Line.render, ending]
  | some redirect => simp [Line.render, ending, String.append_assoc]

/-- A chain ends with its last command, or with the redirect behind it. -/
theorem render_chain_append (stages : List Stage) (last : Stage) (redirect : Option Redirect) :
    ∃ head, (Line.chain (stages ++ [last]) redirect).render
      = head ++ last.text ++ ending redirect := by
  rw [render_chain]
  by_cases h : stages = []
  · exact ⟨"", by simp [h, chainText]⟩
  · refine ⟨chainText stages ++ piping last.comments, ?_⟩
    rw [chainText_append h, joined_eq, ← String.append_assoc]

/-! ## Rows -/

theorem comments_chainRows (code ending : String) (stages : List Stage) :
    (chainRows code ending stages).filterMap Row.comment? = stages.flatMap Stage.comments := by
  fun_induction chainRows code ending stages with
  | case1 code => rfl
  | case2 code stage rest hnone ih =>
    rw [ih, List.flatMap_cons, List.isEmpty_iff.mp hnone, List.nil_append]
  | case3 code stage rest hsome ih =>
    rw [List.filterMap_cons_none rfl, List.filterMap_append, ih, List.filterMap_map,
      show Row.comment? ∘ Row.comment = some from rfl, List.filterMap_some, List.flatMap_cons]

/-- A new command at the end of a chain brings the comments in front of it. -/
theorem comments_chain_append {stages : List Stage} (h : stages ≠ []) (last : Stage)
    (redirect : Option Redirect) :
    (Line.chain (stages ++ [last]) redirect).comments
      = (Line.chain stages redirect).comments ++ last.comments := by
  cases stages with
  | nil => exact absurd rfl h
  | cons first rest => simp [Line.comments, Line.rows, comments_chainRows]

theorem comments_chain_redirect (stages : List Stage) (redirect : Option Redirect) :
    (Line.chain stages redirect).comments = (Line.chain stages none).comments := by
  cases stages with
  | nil => rfl
  | cons first rest => simp [Line.comments, Line.rows, comments_chainRows]

/-! ## Nothing is lost -/

namespace Assembly

/-- A body under construction from some fragments. -/
def ofFragments (fragments : List Fragment) : Assembly := fragments.foldl push empty

theorem ofFragments_append (fragments more : List Fragment) :
    ofFragments (fragments ++ more) = more.foldl push (ofFragments fragments) := List.foldl_append

theorem push_of_text {fragment : Fragment} {text : String} (h : fragment.text? = some text)
    (a : Assembly) : a.push fragment = a.pushCommand text fragment.pipes := by
  cases fragment with
  | command _ _ | block _ => cases h; rfl
  | redirect _ _ | placeholder _ => cases h

/-- A chain, and the comments behind it, below the lines before. -/
theorem reverse_chainLines (c : OpenChain) (redirect : Option Redirect) (lines : List Line) :
    (chainLines c redirect ++ lines).reverse = lines.reverse
      ++ .chain c.stages.reverse redirect :: c.comments.reverse.map .comment := by
  simp [chainLines]

theorem mem_chainLines {stages : List Stage} {redirect r : Option Redirect} {c : OpenChain}
    {lines : List Line} : Line.chain stages redirect ∈ chainLines c r ++ lines ↔
      (stages = c.stages.reverse ∧ redirect = r) ∨ Line.chain stages redirect ∈ lines := by
  simp [chainLines]

/-- A comment goes behind all that is written. -/
theorem closed_pushComment (a : Assembly) (text : String) :
    (a.pushComment text).closed = .comment text :: a.closed := by
  obtain ⟨lines, chain⟩ := a
  cases chain with
  | none => rfl
  | some c =>
    unfold pushComment
    by_cases h : c.pipes = true
    · simp [h, closed, chainLines]
    · simp only [h]
      rfl

/-- A redirect without a chain has a line of its own. -/
theorem closed_pushRedirect {a : Assembly} (h : a.chain = none) (redirect : Redirect) :
    (a.pushRedirect redirect).closed = .touch redirect :: a.closed := by
  obtain ⟨lines, chain⟩ := a
  cases h
  rfl

end Assembly

open Assembly (ofFragments)

@[simp] theorem comments_comment (text : String) : (Line.comment text).comments = [text] := rfl

@[simp] theorem comments_touch (redirect : Redirect) : (Line.touch redirect).comments = [] := rfl

@[simp] theorem flatMap_comments (texts : List String) :
    (texts.map Line.comment).flatMap Line.comments = texts := by
  rw [List.flatMap_map]
  exact List.flatMap_singleton' texts

@[simp] theorem filterMap_redirect?_comments (texts : List String) :
    (texts.map Line.comment).filterMap Line.redirect? = [] := by
  simp [List.filterMap_map, Line.redirect?]

/-- The comments and redirects of a body under construction, and that it has no chain without
a command. -/
structure Keeps (comments : List String) (redirects : List Redirect) (a : Assembly) : Prop where
  commands : ∀ stages redirect, Line.chain stages redirect ∈ a.closed → stages ≠ []
  comments : a.closed.reverse.flatMap Line.comments = comments
  redirects : a.closed.reverse.filterMap Line.redirect? = redirects

namespace Keeps

variable {comments : List String} {redirects : List Redirect} {a : Assembly}

theorem start : Keeps [] [] .empty := ⟨by simp [Assembly.closed, Assembly.empty], rfl, rfl⟩

/-- A command starts a chain. -/
theorem newChain (h : Keeps comments redirects a) (text : String) (pipes : Bool) :
    Keeps comments redirects ⟨a.closed, some ⟨[⟨[], text⟩], pipes, []⟩⟩ where
  commands := by
    intro stages redirect hm
    rcases Assembly.mem_chainLines.mp hm with ⟨rfl, _⟩ | hm
    · simp
    · exact h.commands stages redirect hm
  comments := by
    rw [Assembly.closed, Assembly.reverse_chainLines, List.flatMap_append, h.comments]
    simp [Line.comments, Line.rows, chainRows, Row.comment?]
  redirects := by
    rw [Assembly.closed, Assembly.reverse_chainLines, List.filterMap_append, h.redirects]
    simp [Line.redirect?]

/-- A command joins the open chain. The comments behind the chain become those in front of the
command, so they stay where they are among the comments. -/
theorem joined {lines : List Line} {c : OpenChain} (h : Keeps comments redirects ⟨lines, some c⟩)
    (text : String) (pipes : Bool) :
    Keeps comments redirects ⟨lines, some ⟨⟨c.comments.reverse, text⟩ :: c.stages, pipes, []⟩⟩ where
  commands := by
    intro stages redirect hm
    rcases Assembly.mem_chainLines.mp hm with ⟨rfl, _⟩ | hm
    · simp
    · exact h.commands stages redirect (Assembly.mem_chainLines.mpr (Or.inr hm))
  comments := by
    -- only behind a first command are the comments of a stage written
    have hstages : c.stages.reverse ≠ [] :=
      h.commands _ none (Assembly.mem_chainLines.mpr (Or.inl ⟨rfl, rfl⟩))
    have hcomments := h.comments
    simp only [Assembly.closed, Assembly.reverse_chainLines, List.flatMap_append,
      List.flatMap_cons, flatMap_comments] at hcomments ⊢
    rw [List.reverse_cons, comments_chain_append hstages, ← hcomments]
    simp
  redirects := by
    have hredirects := h.redirects
    simp only [Assembly.closed, Assembly.reverse_chainLines, List.filterMap_append,
      List.filterMap_cons, filterMap_redirect?_comments, Line.redirect?] at hredirects ⊢
    exact hredirects

theorem command (h : Keeps comments redirects a) (text : String) (pipes : Bool) :
    Keeps comments redirects (a.pushCommand text pipes) := by
  obtain ⟨lines, chain⟩ := a
  cases chain with
  | none => exact h.newChain text pipes
  | some c =>
    by_cases hpipes : c.pipes = true
    · simp only [Assembly.pushCommand, hpipes, if_true]
      exact h.joined text pipes
    · simp only [Assembly.pushCommand, hpipes]
      exact h.newChain text pipes

theorem comment (h : Keeps comments redirects a) (text : String) :
    Keeps (comments ++ [text]) redirects (a.pushComment text) where
  commands := by
    intro stages redirect hm
    rw [Assembly.closed_pushComment] at hm
    exact h.commands stages redirect (by simpa using hm)
  comments := by simp [Assembly.closed_pushComment, h.comments]
  redirects := by simp [Assembly.closed_pushComment, h.redirects, Line.redirect?]

/-- A redirect ends the open chain, and nothing else in it changes. -/
theorem redirected {lines : List Line} {c : OpenChain}
    (h : Keeps comments redirects ⟨lines, some c⟩) (r : Redirect) :
    Keeps comments (redirects ++ [r]) ⟨Assembly.chainLines c (some r) ++ lines, none⟩ where
  commands := by
    intro stages redirect hm
    rcases Assembly.mem_chainLines.mp hm with ⟨rfl, _⟩ | hm
    · exact h.commands _ none (Assembly.mem_chainLines.mpr (Or.inl ⟨rfl, rfl⟩))
    · exact h.commands stages redirect (Assembly.mem_chainLines.mpr (Or.inr hm))
  comments := by
    have hcomments := h.comments
    simp only [Assembly.closed, Assembly.reverse_chainLines, List.flatMap_append,
      List.flatMap_cons] at hcomments ⊢
    rw [comments_chain_redirect, hcomments]
  redirects := by
    have hredirects := h.redirects
    simp only [Assembly.closed, Assembly.reverse_chainLines, List.filterMap_append,
      List.filterMap_cons, filterMap_redirect?_comments, Line.redirect?,
      List.append_nil] at hredirects ⊢
    rw [hredirects]

theorem redirect (h : Keeps comments redirects a) (r : Redirect) :
    Keeps comments (redirects ++ [r]) (a.pushRedirect r) := by
  cases hchain : a.chain with
  | none =>
    have hclosed := Assembly.closed_pushRedirect hchain r
    refine ⟨?_, ?_, ?_⟩
    · intro stages redirect hm
      rw [hclosed] at hm
      exact h.commands stages redirect (by simpa using hm)
    · simp [hclosed, h.comments]
    · simp [hclosed, h.redirects, Line.redirect?]
  | some c =>
    obtain ⟨lines, _⟩ := a
    cases hchain
    exact h.redirected r

theorem push (h : Keeps comments redirects a) (fragment : Fragment) :
    Keeps (comments ++ fragment.comment?.toList) (redirects ++ fragment.redirect?.toList)
      (a.push fragment) := by
  cases fragment with
  | command text pipesOnward =>
    simpa [Fragment.comment?, Fragment.redirect?, Assembly.push] using h.command text pipesOnward
  | block text =>
    simpa [Fragment.comment?, Fragment.redirect?, Assembly.push] using h.command text true
  | redirect path append =>
    simpa [Fragment.comment?, Fragment.redirect?, Assembly.push] using h.redirect ⟨path, append⟩
  | placeholder text =>
    simpa [Fragment.comment?, Fragment.redirect?, Assembly.push] using
      h.comment (Shell.flatten text)

theorem run (h : Keeps comments redirects a) (fragments : List Fragment) :
    Keeps (comments ++ fragments.filterMap Fragment.comment?)
      (redirects ++ fragments.filterMap Fragment.redirect?) (fragments.foldl Assembly.push a) := by
  induction fragments generalizing comments redirects a with
  | nil => simpa using h
  | cons fragment rest ih =>
    have hrest := ih (h.push fragment)
    cases hc : fragment.comment? <;> cases hr : fragment.redirect? <;> simpa [hc, hr] using hrest

end Keeps

theorem keeps_ofFragments (fragments : List Fragment) :
    Keeps (fragments.filterMap Fragment.comment?) (fragments.filterMap Fragment.redirect?)
      (ofFragments fragments) := by
  simpa [ofFragments] using Keeps.start.run fragments

/-! ## What is piped into what -/

/-- What the output of the last command of an open chain will go into. -/
def OpenChain.onward (c : OpenChain) (rest : List Fragment) : Option (List String) :=
  if c.pipes then (upToCommand rest).map (c.comments.reverse ++ ·) else none

namespace Assembly

@[simp] theorem joints_chainLines (c : OpenChain) (redirect : Option Redirect) :
    (chainLines c redirect).reverse.flatMap Line.joints = jointsTo none c.stages.reverse := by
  simp [chainLines, Line.joints]

end Assembly

-- A redirect ends a chain, and so does a command that gives no output.
example : (bodyLines [.command "a" true, .placeholder "# x", .block "b", .redirect "o" false,
    .command "c" false, .command "d" true]).flatMap Line.joints
      = [⟨"a", some ["# x"]⟩, ⟨"b", none⟩, ⟨"c", none⟩, ⟨"d", none⟩] := by decide

end Script

end PipeScript
