-- What a redirect goes to. It belongs to the last command, and the comments between the two
-- come below it, as long as that command pipes onward. A command that does not is given up at
-- the first comment: a redirect behind the comment has no command, and only makes the file.
import Mathlib.Data.List.Induction
import PipeScript.Proofs.Script.Layout

namespace PipeScript

namespace Script

/-! ## Bodies that grow -/

/-- A text at the end of the last line. -/
theorem intercalate_concat (lines : List String) (last more : String) :
    "\n".intercalate (lines ++ [last ++ more]) = "\n".intercalate (lines ++ [last]) ++ more := by
  by_cases h : lines = []
  · simp [h]
  · rw [String.intercalate_append_of_ne_nil h (by simp),
      String.intercalate_append_of_ne_nil h (by simp)]
    simp [String.append_assoc]

/-- More lines below the last one. -/
theorem intercalate_below {lines : List String} (h : lines ≠ []) (more : List String) :
    "\n".intercalate (lines ++ more)
      = "\n".intercalate lines ++ String.join (more.map ("\n" ++ ·)) := by
  induction more generalizing lines with
  | nil => simp
  | cons line more ih =>
    rw [List.append_cons, ih (by simp), String.intercalate_append_of_ne_nil h (by simp)]
    simp [String.append_assoc]

namespace Assembly

/-- The text of the body if nothing more comes. -/
def text (a : Assembly) : String := "\n".intercalate (a.closed.reverse.map Line.render)

theorem text_ofFragments (fragments : List Fragment) :
    (ofFragments fragments).text = body fragments := rfl

/-- A command is the last one of the open chain, and no comment is behind it. -/
theorem exists_pushCommand (a : Assembly) (text : String) (pipes : Bool) :
    ∃ lines comments stages,
      a.pushCommand text pipes = ⟨lines, some ⟨⟨comments, text⟩ :: stages, pipes, []⟩⟩ := by
  unfold pushCommand
  split
  · split
    · exact ⟨_, _, _, rfl⟩
    · exact ⟨_, _, _, rfl⟩
  · exact ⟨_, _, _, rfl⟩

/-! ## Comments behind a command -/

/-- Comments come below all that is written. -/
theorem closed_comments (notes : List String) (a : Assembly) :
    ((notes.map Fragment.placeholder).foldl push a).closed
      = ((notes.map Shell.flatten).map Line.comment).reverse ++ a.closed := by
  induction notes generalizing a with
  | nil => rfl
  | cons note notes ih =>
    rw [List.map_cons, List.foldl_cons, ih]
    show _ ++ (a.pushComment (Shell.flatten note)).closed = _
    simp [closed_pushComment]

/-- A chain that pipes onward stays open. -/
theorem comments_piping (notes : List String) (lines : List Line) {c : OpenChain}
    (h : c.pipes = true) :
    (notes.map Fragment.placeholder).foldl push ⟨lines, some c⟩
      = ⟨lines, some { c with comments := (notes.map Shell.flatten).reverse ++ c.comments }⟩ := by
  induction notes generalizing c with
  | nil => rfl
  | cons note notes ih =>
    have hpush : push ⟨lines, some c⟩ (.placeholder note)
        = ⟨lines, some { c with comments := Shell.flatten note :: c.comments }⟩ := by
      simp [push, pushComment, h]
    rw [List.map_cons, List.foldl_cons, hpush,
      ih (c := { c with comments := Shell.flatten note :: c.comments }) h]
    simp

/-- Any other chain is closed by the first comment. -/
theorem comments_ended (notes : List String) {a : Assembly}
    (h : ∀ c, a.chain = some c → c.pipes = false ∧ notes ≠ []) :
    ((notes.map Fragment.placeholder).foldl push a).chain = none := by
  induction notes generalizing a with
  | nil =>
    cases hchain : a.chain with
    | none => exact hchain
    | some c => exact absurd rfl (h c hchain).2
  | cons note notes ih =>
    have hnone : (a.push (.placeholder note)).chain = none := by
      cases hchain : a.chain with
      | none => simp [push, pushComment, hchain]
      | some c => simp [push, pushComment, hchain, (h c hchain).1]
    rw [List.map_cons, List.foldl_cons]
    apply ih
    intro c hc
    rw [hnone] at hc
    cases hc

/-- A redirect of a chain stands behind its last command, above the comments. -/
theorem text_pushRedirect (lines : List Line) (c : OpenChain) (redirect : Redirect) :
    (pushRedirect ⟨lines, some c⟩ redirect).text
      = text ⟨lines, some { c with comments := [] }⟩ ++ " " ++ redirect.render
        ++ String.join (c.comments.reverse.map ("\n" ++ ·)) := by
  have hlines : (pushRedirect ⟨lines, some c⟩ redirect).closed.reverse.map Line.render
      = lines.reverse.map Line.render
        ++ [(Line.chain c.stages.reverse none).render ++ (" " ++ redirect.render)]
        ++ c.comments.reverse := by
    simp [pushRedirect, closed, chainLines, Line.render, Function.comp_def, String.append_assoc]
  have hbefore : (closed ⟨lines, some { c with comments := [] }⟩).reverse.map Line.render
      = lines.reverse.map Line.render ++ [(Line.chain c.stages.reverse none).render] := by
    simp [closed, chainLines]
  rw [text, text, hlines, hbefore, intercalate_below (by simp), intercalate_concat]
  simp only [String.append_assoc]

theorem text_append (a : Assembly) {b : Assembly} {lines : List Line}
    (hb : b.closed = lines.reverse ++ a.closed) (h : a.closed ≠ []) :
    b.text = a.text ++ String.join (lines.map fun line => "\n" ++ line.render) := by
  rw [text, text, hb, List.reverse_append, List.reverse_reverse, List.map_append,
    intercalate_below (by simpa using h), List.map_map]
  rfl

/-- The text ends with the last command if nothing is behind it. -/
theorem exists_text (lines : List Line) (comments : List String) (text : String)
    (stages : List Stage) (pipes : Bool) : ∃ head,
      Assembly.text ⟨lines, some ⟨⟨comments, text⟩ :: stages, pipes, []⟩⟩ = head ++ text := by
  obtain ⟨head, hhead⟩ := render_chain_append stages.reverse ⟨comments, text⟩ none
  refine ⟨"\n".intercalate (lines.reverse.map Line.render ++ [head]), ?_⟩
  rw [Assembly.text, closed, reverse_chainLines, ← intercalate_concat]
  simp only [List.reverse_cons, List.reverse_nil, List.map_nil, List.map_append, List.map_cons,
    hhead, ending, String.append_empty]

end Assembly

open Assembly (ofFragments)

/-! ## The command that a redirect belongs to -/

/-- The output of a command can still be redirected: only comments come behind it, and none if
it does not pipe onward. -/
def Offers (fragments : List Fragment) (text : String) : Prop :=
  ∃ lead command notes, fragments = lead ++ command :: notes.map .placeholder ∧
    command.text? = some text ∧ (command.pipes = true ∨ notes = [])

theorem ofFragments_command (lead : List Fragment) {command : Fragment} {text : String}
    (h : command.text? = some text) : ∃ lines comments stages,
      ofFragments (lead ++ [command])
        = ⟨lines, some ⟨⟨comments, text⟩ :: stages, command.pipes, []⟩⟩ := by
  rw [Assembly.ofFragments_append]
  show ∃ lines comments stages, (ofFragments lead).push command = _
  rw [Assembly.push_of_text h]
  exact Assembly.exists_pushCommand _ text command.pipes

/-- The chain stays open behind a command whose output can still be redirected. -/
theorem ofFragments_notes {lead : List Fragment} {command : Fragment} {notes : List String}
    {lines : List Line} {stages : List Stage}
    (hstate : ofFragments (lead ++ [command]) = ⟨lines, some ⟨stages, command.pipes, []⟩⟩)
    (h : command.pipes = true ∨ notes = []) :
    ofFragments (lead ++ command :: notes.map .placeholder)
      = ⟨lines, some ⟨stages, command.pipes, (notes.map Shell.flatten).reverse⟩⟩ := by
  rw [List.append_cons, Assembly.ofFragments_append, hstate]
  rcases h with hpipes | rfl
  · rw [Assembly.comments_piping notes lines (c := ⟨stages, command.pipes, []⟩) hpipes,
      List.append_nil]
  · rfl

/-- A redirect behind a command and its comments: it follows the command, or makes a line of
its own below the comments. -/
theorem body_redirect (lead : List Fragment) {command : Fragment} {text : String}
    (h : command.text? = some text) (notes : List String) (r : Redirect) :
    body (lead ++ command :: notes.map .placeholder ++ [.redirect r.path r.append])
      = body (lead ++ [command]) ++
        if command.pipes = true ∨ notes = [] then
          " " ++ r.render ++ String.join (notes.map fun note => "\n" ++ Shell.flatten note)
        else
          String.join (notes.map fun note => "\n" ++ Shell.flatten note) ++ "\n: " ++ r.render := by
  obtain ⟨lines, comments, stages, hstate⟩ := ofFragments_command lead h
  rw [← Assembly.text_ofFragments, ← Assembly.text_ofFragments, Assembly.ofFragments_append]
  show ((ofFragments (lead ++ command :: notes.map .placeholder)).pushRedirect r).text = _
  by_cases hoffers : command.pipes = true ∨ notes = []
  · rw [if_pos hoffers, ofFragments_notes hstate hoffers, Assembly.text_pushRedirect, hstate]
    simp [String.append_assoc, Function.comp_def]
  · rw [if_neg hoffers]
    rw [not_or] at hoffers
    have hnone : (ofFragments (lead ++ command :: notes.map .placeholder)).chain = none := by
      rw [List.append_cons, Assembly.ofFragments_append, hstate]
      apply Assembly.comments_ended
      rintro c ⟨⟩
      exact ⟨by simpa using hoffers.1, hoffers.2⟩
    have hclosed : ((ofFragments (lead ++ command :: notes.map .placeholder)).pushRedirect r).closed
        = ((notes.map Shell.flatten).map Line.comment ++ [Line.touch r]).reverse
          ++ (ofFragments (lead ++ [command])).closed := by
      rw [Assembly.closed_pushRedirect hnone, List.append_cons, Assembly.ofFragments_append,
        Assembly.closed_comments]
      simp
    rw [Assembly.text_append _ hclosed (by simp [hstate, Assembly.closed, Assembly.chainLines])]
    have hcolon : "\n" ++ (": " ++ r.render) = "\n: " ++ r.render := by
      rw [← String.append_assoc]
      rfl
    simp [Line.render, String.join_append, String.append_assoc, Function.comp_def, hcolon]

/-! ## Open chains -/

namespace Assembly

theorem chain_pushRedirect (a : Assembly) (redirect : Redirect) :
    (a.pushRedirect redirect).chain = none := by
  unfold pushRedirect
  split <;> rfl

theorem chain_pushComment {a : Assembly} {text : String} {c : OpenChain}
    (h : (a.pushComment text).chain = some c) : ∃ before, a.chain = some before ∧
      before.pipes = true ∧ c = { before with comments := text :: before.comments } := by
  unfold pushComment at h
  split at h
  · rename_i before hchain
    by_cases hpipes : before.pipes = true
    · rw [if_pos hpipes] at h
      cases h
      exact ⟨before, hchain, hpipes, rfl⟩
    · rw [if_neg hpipes] at h
      cases h
  · cases h

/-- Finished lines stay as they are. -/
theorem lines_push (a : Assembly) (fragment : Fragment) :
    ∃ more, (a.push fragment).lines = more ++ a.lines := by
  obtain ⟨lines, chain⟩ := a
  cases fragment with
  | command text _ | block text =>
    cases chain with
    | none => exact ⟨[], rfl⟩
    | some c =>
      by_cases hpipes : c.pipes = true
      · simp [push, pushCommand, hpipes]
      · exact ⟨chainLines c none, by simp [push, pushCommand, hpipes, closed]⟩
  | redirect path append =>
    cases chain with
    | none => exact ⟨[.touch ⟨path, append⟩], rfl⟩
    | some c => exact ⟨chainLines c (some ⟨path, append⟩), rfl⟩
  | placeholder text =>
    cases chain with
    | none => exact ⟨[.comment (Shell.flatten text)], rfl⟩
    | some c =>
      by_cases hpipes : c.pipes = true
      · simp [push, pushComment, hpipes]
      · refine ⟨.comment (Shell.flatten text) :: chainLines c none, ?_⟩
        simp [push, pushComment, hpipes, closed]

theorem lines_run (fragments : List Fragment) (a : Assembly) :
    ∃ more, (fragments.foldl push a).closed = more ++ a.lines := by
  induction fragments generalizing a with
  | nil =>
    cases hchain : a.chain with
    | none => exact ⟨[], by simp [closed, hchain]⟩
    | some c => exact ⟨chainLines c none, by simp [closed, hchain]⟩
  | cons fragment rest ih =>
    obtain ⟨more, hmore⟩ := lines_push a fragment
    obtain ⟨most, hmost⟩ := ih (a.push fragment)
    exact ⟨most ++ more, by rw [List.foldl_cons, hmost, hmore, List.append_assoc]⟩

end Assembly

/-- An open chain ends with a command whose output can still be redirected. -/
theorem command_of_chain (fragments : List Fragment) {c : OpenChain}
    (h : (ofFragments fragments).chain = some c) :
    ∃ lead command notes comments text stages,
      fragments = lead ++ command :: notes.map .placeholder ∧ command.text? = some text ∧
      command.pipes = c.pipes ∧ (c.pipes = true ∨ notes = []) ∧
      c.stages = ⟨comments, text⟩ :: stages := by
  induction fragments using List.reverseRecOn generalizing c with
  | nil => cases h
  | append_singleton fragments fragment ih =>
    cases htext : fragment.text? with
    | some text =>
      obtain ⟨lines, comments, stages, hstate⟩ := ofFragments_command fragments htext
      rw [hstate] at h
      cases h
      exact ⟨fragments, fragment, [], comments, text, stages, rfl, htext, rfl, Or.inr rfl, rfl⟩
    | none =>
      rw [Assembly.ofFragments_append] at h
      cases fragment with
      | command _ _ | block _ => cases htext
      | redirect path append =>
        cases h.symm.trans (Assembly.chain_pushRedirect _ ⟨path, append⟩)
      | placeholder note =>
        obtain ⟨before, hchain, hpipes, rfl⟩ := Assembly.chain_pushComment h
        obtain ⟨lead, command, notes, comments, text, stages, rfl, hcommand, heq, _, hstages⟩ :=
          ih hchain
        refine ⟨lead, command, notes ++ [note], comments, text, stages, ?_, hcommand, heq,
          Or.inl hpipes, hstages⟩
        simp

theorem offers_iff_chain (fragments : List Fragment) (text : String) :
    Offers fragments text ↔ ∃ c comments stages,
      (ofFragments fragments).chain = some c ∧ c.stages = ⟨comments, text⟩ :: stages := by
  constructor
  · rintro ⟨lead, command, notes, rfl, hcommand, hoffers⟩
    obtain ⟨lines, comments, stages, hstate⟩ := ofFragments_command lead hcommand
    rw [ofFragments_notes hstate hoffers]
    exact ⟨_, comments, stages, rfl, rfl⟩
  · rintro ⟨c, comments, stages, hchain, hstages⟩
    obtain ⟨lead, command, notes, _, text', _, heq, hcommand, hpipes, hoffers, hstages'⟩ :=
      command_of_chain fragments hchain
    rw [hstages'] at hstages
    cases hstages
    exact ⟨lead, command, notes, heq, hcommand, hpipes ▸ hoffers⟩

/-! ## The law -/

theorem filterMap_redirect?_lines (a : Assembly) :
    a.lines.reverse.filterMap Line.redirect? = a.closed.reverse.filterMap Line.redirect? := by
  obtain ⟨lines, chain⟩ := a
  cases chain with
  | none => rfl
  | some c =>
    rw [Assembly.closed, Assembly.reverse_chainLines]
    simp [Line.redirect?]

/-- The line that a redirect makes comes behind as many others with a redirect as there are
redirects before it. -/
theorem getElem?_redirect {before rest : List Fragment} {r : Redirect} {line : Line}
    (hline : line.redirect? = some r)
    (h : ∃ more, ((ofFragments before).pushRedirect r).lines
      = more ++ line :: (ofFragments before).lines) :
    ((bodyLines (before ++ .redirect r.path r.append :: rest)).filter (·.redirect?.isSome))[
      (before.filterMap Fragment.redirect?).length]? = some line := by
  obtain ⟨more, hmore⟩ := h
  obtain ⟨most, hmost⟩ := Assembly.lines_run rest ((ofFragments before).pushRedirect r)
  have hlines : bodyLines (before ++ .redirect r.path r.append :: rest)
      = (ofFragments before).lines.reverse ++ line :: (most ++ more).reverse := by
    have hclosed : bodyLines (before ++ .redirect r.path r.append :: rest)
        = (rest.foldl Assembly.push ((ofFragments before).pushRedirect r)).closed.reverse := by
      rw [bodyLines, List.foldl_append]
      rfl
    rw [hclosed, hmost, hmore]
    simp
  have hcount : ((ofFragments before).lines.reverse.filter (·.redirect?.isSome)).length
      = (before.filterMap Fragment.redirect?).length := by
    rw [← (keeps_ofFragments before).redirects, ← filterMap_redirect?_lines,
      List.length_filterMap_eq_countP, List.countP_eq_length_filter]
  rw [hlines, List.filter_append, ← hcount, List.getElem?_append_right (Nat.le_refl _),
    Nat.sub_self, List.filter_cons_of_pos (by simp [hline])]
  rfl

/-- A redirect behind a command and its comments: the command keeps it if it pipes onward or if
there are no comments, and otherwise the redirect only makes the file. So wherever a redirect
comes, its line is the chain of the command that still offers its output, or a colon if there is
none. -/
theorem a_redirect_belongs_to_the_command_that_offers_its_output (before : List Fragment)
    (r : Redirect) (rest : List Fragment) :
    (∀ lead command text notes, before = lead ++ command :: notes.map .placeholder →
      command.text? = some text →
      (∃ head, body (lead ++ [command]) = head ++ text) ∧
      body (before ++ [.redirect r.path r.append])
        = body (lead ++ [command]) ++
          if command.pipes = true ∨ notes = [] then
            " " ++ r.render ++ String.join (notes.map fun note => "\n" ++ Shell.flatten note)
          else
            String.join (notes.map fun note => "\n" ++ Shell.flatten note) ++ "\n: "
              ++ r.render) ∧
    ∃ line, ((bodyLines (before ++ .redirect r.path r.append :: rest)).filter
        (·.redirect?.isSome))[(before.filterMap Fragment.redirect?).length]? = some line ∧
      ((line = .touch r ∧ ∀ text, ¬ Offers before text) ∨
        ∃ stages last, line = .chain (stages ++ [last]) (some r) ∧ Offers before last.text) := by
  constructor
  · rintro lead command text notes rfl hcommand
    refine ⟨?_, body_redirect lead hcommand notes r⟩
    obtain ⟨lines, comments, stages, hstate⟩ := ofFragments_command lead hcommand
    rw [← Assembly.text_ofFragments, hstate]
    exact Assembly.exists_text lines comments text stages command.pipes
  · cases hchain : (ofFragments before).chain with
    | none =>
      have hlines : ((ofFragments before).pushRedirect r).lines
          = .touch r :: (ofFragments before).lines := by
        simp [Assembly.pushRedirect, hchain]
      refine ⟨_, getElem?_redirect rfl ⟨[], hlines⟩, Or.inl ⟨rfl, fun text hoffers => ?_⟩⟩
      obtain ⟨c, _, _, hsome, _⟩ := (offers_iff_chain before text).mp hoffers
      rw [hchain] at hsome
      cases hsome
    | some c =>
      obtain ⟨_, _, _, comments, text, stages, _, _, _, _, hstages⟩ :=
        command_of_chain before hchain
      have hoffers := (offers_iff_chain before text).mpr ⟨c, comments, stages, hchain, hstages⟩
      have hlines : ((ofFragments before).pushRedirect r).lines
          = c.comments.map .comment ++ .chain (stages.reverse ++ [⟨comments, text⟩]) (some r)
            :: (ofFragments before).lines := by
        simp [Assembly.pushRedirect, hchain, Assembly.chainLines, hstages]
      exact ⟨_, getElem?_redirect rfl ⟨_, hlines⟩, Or.inr ⟨_, _, rfl, hoffers⟩⟩

/-- A command that pipes onward keeps its redirect over two comments. -/
theorem a_redirect_reaches_over_comments :
    body [.command "ls" true, .placeholder "# a\nb", .placeholder "# c", .redirect "o" true]
      = "ls >> \"o\"\n# a b\n# c" := by
  have hlaw := (a_redirect_belongs_to_the_command_that_offers_its_output
    [.command "ls" true, .placeholder "# a\nb", .placeholder "# c"] ⟨"o", true⟩ []).1
    [] (.command "ls" true) "ls" ["# a\nb", "# c"] rfl rfl
  exact hlaw.2.trans (by decide)

/-- A comment is enough to part a redirect from a command that gives no output. -/
theorem a_comment_can_part_a_redirect_from_its_command :
    ¬ ∀ (lead : List Fragment) (command : Fragment) (text : String) (notes : List String)
      (r : Redirect), command.text? = some text →
      ∃ head, body (lead ++ command :: notes.map .placeholder ++ [.redirect r.path r.append])
        = head ++ text ++ " " ++ r.render
          ++ String.join (notes.map fun note => "\n" ++ Shell.flatten note) := by
  intro h
  obtain ⟨head, hbody⟩ := h [] (.command "rm \"x\"" false) _ ["# Unknown command: zzz"]
    ⟨"rm.log", false⟩ rfl
  have hactual : body [.command "rm \"x\"" false, .placeholder "# Unknown command: zzz",
      .redirect "rm.log" false] = "rm \"x\"\n# Unknown command: zzz\n: > \"rm.log\"" := by decide
  have hclaimed : String.join (["# Unknown command: zzz"].map fun note =>
      "\n" ++ Shell.flatten note) = "\n# Unknown command: zzz" := by decide
  rw [hclaimed] at hbody
  -- the one ends with the path, the other with the comment
  have hlast := congrArg String.toList (hactual.symm.trans hbody)
  rw [String.toList_append] at hlast
  have hends := congrArg List.getLast? hlast
  rw [List.getLast?_append] at hends
  simp at hends

end Script

end PipeScript
