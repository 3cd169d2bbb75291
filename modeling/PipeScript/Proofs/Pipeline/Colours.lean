-- The colours at every turn of the search for a cycle. `Passes` are the states in which the
-- search takes a turn, in whichever of its calls. They are all `Good`, so a gray node is always
-- found on the way, and a call gives up only when it has followed everything.
import PipeScript.Proofs.Pipeline.CycleSearch
import PipeScript.Proofs.Pipeline.Loops

namespace PipeScript

namespace CycleSearch

variable {n : Nat} {w : Wiring n} {colours : Vector Colour n} {starts : List (Fin n)}
  {s t : CycleSearch n}

/-! ## The states of a search -/

/-- The state in which the loop starts at a white node. -/
def entered (w : Wiring n) (colours : Vector Colour n) (start : Fin n) : CycleSearch n :=
  ⟨colours.set start .gray start.isLt, [(start, w.successors.get start)]⟩

/-- The states in which a search takes a turn. Every white start is a call with a loop of its own.
If it finds no cycle, the calls behind it go on with the colours that it leaves. -/
def Passes (w : Wiring n) (colours : Vector Colour n) : List (Fin n) → CycleSearch n → Prop
  | [], _ => False
  | start :: rest, s =>
    if colours.get start = .white then
      Turn.Reaches (turn w) (entered w colours start) s ∨
        (run w (entered w colours start)).2 = none ∧
          Passes w (run w (entered w colours start)).1 rest s
    else Passes w colours rest s

/-- A turn closes a cycle. -/
def Closes (w : Wiring n) (s : CycleSearch n) (path : List (Fin n)) : Prop :=
  ∃ colours, s.turn w = .stop (colours, some path)

/-- A loop finds a cycle when it comes to a turn that closes it. -/
theorem run_eq_some (s : CycleSearch n) (path : List (Fin n)) :
    (run w s).2 = some path ↔ ∃ t, Turn.Reaches (turn w) s t ∧ Closes w t path := by
  obtain ⟨turns, hends⟩ := ends_run w s
  constructor
  · intro hpath
    obtain ⟨last, hway, hlast⟩ := (Turn.exists_ends_iff _).mp ⟨turns, hends⟩
    exact ⟨last, hway, (run w s).1, by rw [hlast, ← hpath]⟩
  · rintro ⟨t, hway, colours, ht⟩
    obtain ⟨turns', hends'⟩ := (Turn.exists_ends_iff _).mpr ⟨t, hway, ht⟩
    rw [hends.unique hends']

/-- A white start is searched first, and then the rest unless a cycle is found. -/
theorem searchFrom_white {start : Fin n} {rest path : List (Fin n)}
    (hs : colours.get start = .white) :
    searchFrom w colours (start :: rest) = some path ↔
      (run w (entered w colours start)).2 = some path ∨
        (run w (entered w colours start)).2 = none ∧
          searchFrom w (run w (entered w colours start)).1 rest = some path := by
  rw [searchFrom, if_pos hs]
  split
  · rename_i found hrun
    have hrun : run w (entered w colours start) = (_, some found) := hrun
    simp [hrun]
  · rename_i colours' hrun
    have hrun : run w (entered w colours start) = (colours', none) := hrun
    simp [hrun]

/-- A search shows a cycle when one of its turns closes it. -/
theorem searchFrom_eq_some (path : List (Fin n)) :
    searchFrom w colours starts = some path ↔ ∃ s, Passes w colours starts s ∧ Closes w s path := by
  induction starts generalizing colours with
  | nil => simp [searchFrom, Passes]
  | cons start rest ih =>
    by_cases hs : colours.get start = .white
    · -- the turn that closes a cycle is one of this call, or this call finds none
      simp only [Passes, if_pos hs, or_and_right, exists_or, and_assoc, exists_and_left]
      rw [searchFrom_white hs, run_eq_some, ih]
    · simp only [Passes, if_neg hs]
      rw [searchFrom, if_neg hs, ih]

/-! ## The invariant at every turn -/

theorem good_reaches (h : Good w s) (hst : Turn.Reaches (turn w) s t) : Good w t := by
  induction hst with
  | refl => exact h
  | tail _ ht ih => exact (good_turn ih ht).1

/-- Every state of a search belongs to a call that started at a white node with good colours. -/
theorem exists_call (h : Good w ⟨colours, []⟩) (hs : Passes w colours starts s) :
    ∃ colours' start, Good w ⟨colours', []⟩ ∧ colours'.get start = .white ∧
      Turn.Reaches (turn w) (entered w colours' start) s := by
  induction starts generalizing colours with
  | nil => exact hs.elim
  | cons start rest ih =>
    unfold Passes at hs
    split at hs
    · rename_i hstart
      rcases hs with hway | ⟨hnone, hrest⟩
      · exact ⟨colours, start, h, hstart, hway⟩
      · -- a call that finds no cycle leaves good colours
        exact ih ((good_run _ (good_start h hstart)).2 hnone).1 hrest
    · exact ih h hs

/-- The innermost node leads to a gray one: the way between them is shown. -/
theorem closing_of_gray {node next : Fin n} {more : List (Fin n)} {stack : List (Visit n)}
    (h : Good w s) (hstack : s.stack = (node, next :: more) :: stack)
    (hgray : s.colours.get next = .gray) :
    ∃ path, closing next (way s.stack) = some path ∧ s.turn w = .stop (s.colours, some path) := by
  have hmem := (h.gray_iff next).mp hgray
  have hlead : w.Leads node next := by
    have := h.followed
    rw [hstack] at this
    exact this.1 next List.mem_cons_self
  have hchain := isChain_way h.followed
  have hnd := h.nodup
  rw [hstack] at hmem hchain hnd ⊢
  obtain ⟨path, hpath, _⟩ := closing_round hchain hnd hlead hmem
  refine ⟨path, hpath, ?_⟩
  have hpath' : closing next (node :: stack.map (·.1)) = some path := hpath
  simp [turn, hstack, hgray, hpath']

/-- At the start of a call no more turns are left than there are nodes and links. -/
theorem left_entered (links : List (Fin n × Fin n)) {start : Fin n}
    (h : colours.get start = .white) :
    left links (entered (.ofLinks links) colours start) ≤ n + links.length := by
  have hpaid : Wiring.owed links (· = .white) (colours.set start .gray start.isLt) + _ = _ :=
    Wiring.owed_set links (decide_eq_true h) rfl
  have hall := Wiring.owed_le links (· = .white) colours
  simp only [left, entered, Visit.work]
  omega

/-- The states in which the search of a wiring takes a turn. -/
def Occurs (w : Wiring n) (s : CycleSearch n) : Prop :=
  Passes w (Vector.replicate n .white) (List.finRange n) s

/-! ## The law -/

/-- At every turn of every call of the search, the gray nodes are those on the way, each once, each
node on the way leads to the one further in, and all successors of a black node are black. So when
the innermost node leads to a gray one, that one is found on the way and the cycle is shown; a loop
stops without a cycle only when nothing is on the way, and it does stop, after no more turns than
the pipeline has nodes and edges. The search shows the cycle that one of these turns closes. -/
theorem a_gray_node_is_always_on_the_way (p : Pipeline) (w : Wiring p.nodes.length)
    (hw : Wiring.ofPipeline p = .ok w) :
    (∀ s, Occurs w s →
      (∀ i, s.colours.get i = .gray ↔ i ∈ way s.stack) ∧ (way s.stack).Nodup ∧
      (way s.stack).reverse.IsChain w.Leads ∧
      (∀ i j, s.colours.get i = .black → w.Leads i j → s.colours.get j = .black) ∧
      (∀ node next more stack, s.stack = (node, next :: more) :: stack →
        s.colours.get next = .gray →
        ∃ path, closing next (way s.stack) = some path ∧
          s.turn w = .stop (s.colours, some path)) ∧
      (∀ colours, s.turn w = .stop (colours, none) → s.stack = []) ∧
      ∃ turns ≤ p.nodes.length + p.edges.length, ∃ answer, Turn.Ends (turn w) s turns answer) ∧
    ∀ path, w.findCycle = some path ↔ ∃ s, Occurs w s ∧ Closes w s path := by
  refine ⟨fun s hs => ?_, searchFrom_eq_some⟩
  obtain ⟨colours, start, hcolours, hstart, hway⟩ := exists_call Wiring.good_nothing hs
  have hgood := good_reaches (good_start hcolours hstart) hway
  refine ⟨hgood.gray_iff, hgood.nodup, List.isChain_reverse.mpr (isChain_way hgood.followed),
    hgood.closed, fun node next more stack => closing_of_gray hgood, fun colours hstop => ?_, ?_⟩
  · rcases stop_of_turn hgood hstop with ⟨hnil, _⟩ | ⟨path, hpath, _⟩
    · exact hnil
    · cases hpath
  · obtain ⟨_, links, hl, rfl⟩ := (Wiring.ofPipeline_eq_ok p w).mp hw
    obtain ⟨turns, hends⟩ := ends_run (.ofLinks links) s
    refine ⟨turns, ?_, _, hends⟩
    calc turns ≤ left links s := hends.le left_turn
      _ ≤ left links (entered (.ofLinks links) colours start) := hway.le left_turn
      _ ≤ p.nodes.length + links.length := left_entered links hstart
      _ = p.nodes.length + p.edges.length := by rw [hl.length_eq]

/-- A node with two edges to one that leads to itself, and with an edge to the first node. -/
def snare : Pipeline where
  nodes := [⟨"end", .output "o" false⟩, ⟨"fork", .input "i"⟩, ⟨"loop", .command "sort" .empty⟩]
  edges := [⟨"fork", "end", none⟩, ⟨"fork", "loop", none⟩, ⟨"fork", "loop", some "x"⟩,
    ⟨"loop", "loop", none⟩]

/-- The edges of the snare by position. -/
def snareLinks : List (Fin 3 × Fin 3) := [(1, 0), (1, 2), (1, 2), (2, 2)]

/-- The second call of the search, when it comes to the node that leads to itself. -/
def caught : CycleSearch 3 := ⟨#v[.black, .gray, .gray], [(2, [2]), (1, [2])]⟩

theorem occurs_caught : Occurs (.ofLinks snareLinks) caught := by
  -- the call from the first node only turns it black
  have hrun : run (.ofLinks snareLinks)
      (entered (.ofLinks snareLinks) (Vector.replicate 3 .white) 0) =
      (#v[.black, .white, .white], none) := by
    obtain ⟨_, hends⟩ := ends_run (.ofLinks snareLinks)
      (entered (.ofLinks snareLinks) (Vector.replicate 3 .white) 0)
    exact hends.unique (.again rfl (.stop rfl))
  have hfirst : (Vector.replicate 3 Colour.white).get 0 = .white := rfl
  have hsecond : #v[Colour.black, .white, .white].get 1 = .white := rfl
  change Passes _ _ [0, 1, 2] caught
  simp only [Passes, if_pos hfirst, hrun, if_pos hsecond]
  exact Or.inr ⟨trivial, Or.inl (.head rfl (.head rfl .refl))⟩

theorem a_loop_behind_a_black_node_is_shown :
    ∃ w : Wiring 3, Wiring.ofPipeline snare = .ok w ∧ Occurs w caught ∧
      caught.colours.get 0 = .black ∧ (way caught.stack).reverse.IsChain w.Leads ∧
      closing 2 (way caught.stack) = some [2, 2] ∧ w.findCycle = some [2, 2] := by
  have hl : snare.Linked snareLinks := rfl
  have hw := hl.ofPipeline_eq (by decide)
  obtain ⟨hturns, hfound⟩ := a_gray_node_is_always_on_the_way snare _ hw
  obtain ⟨_, _, hchain, _, hclosing, _⟩ := hturns caught occurs_caught
  obtain ⟨path, hpath, hstop⟩ := hclosing _ _ _ _ rfl rfl
  cases hpath
  exact ⟨_, hw, occurs_caught, rfl, hchain, rfl, (hfound _).mpr ⟨_, occurs_caught, _, hstop⟩⟩

end CycleSearch

end PipeScript
