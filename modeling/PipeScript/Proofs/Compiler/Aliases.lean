-- Aliases of commands. An alias takes over what its target is: the program, the parameters and
-- with them the warnings. How its target is written it takes over only where the table of
-- builders leads both names to the same builder, and a builder that somebody added can keep
-- that from happening.
import PipeScript.Compiler
import PipeScript.Proofs.Command.Histories

namespace PipeScript

open Command (Definition Registry)
open Script (Builder Builders Fragment Warning)

/-! ## The table of builders -/

namespace Script

/-- The builder takes no notice of the id of the command. -/
def IgnoresId (builder : Builder) : Prop :=
  ∀ (d : Definition) (id : String) (params : Params),
    builder { d with id } params = builder d params

theorem template_ignoresId : IgnoresId template := fun _ _ _ => rfl

theorem builtinBuilder?_ignoresId {name : String} {builder : Builder}
    (h : builtinBuilder? name = some builder) : IgnoresId builder := by
  unfold builtinBuilder? at h
  intro d id params
  -- one layout after the other
  iterate 5
    split at h
    · cases h
      rfl
  cases h

/-- Every builder of the table takes no notice of ids. -/
def Builders.IgnoreIds (builders : Builders) : Prop :=
  ∀ name builder, builders.find? name = some builder → IgnoresId builder

theorem Builders.IgnoreIds.insert {builders : Builders} (h : builders.IgnoreIds) (name : String)
    {builder : Builder} (hb : IgnoresId builder) : (builders.insert name builder).IgnoreIds := by
  intro other found hfound
  simp only [Builders.insert] at hfound
  split at hfound
  · cases hfound
    exact hb
  · exact h other found hfound

theorem Builders.IgnoreIds.builderFor {builders : Builders} (h : builders.IgnoreIds)
    (d : Definition) : IgnoresId (builders.builderFor d) := by
  unfold Builders.builderFor
  rcases hid : builders.find? d.id with _ | builder
  · rcases hprogram : builders.find? d.program with _ | builder
    · exact template_ignoresId
    · exact h _ _ hprogram
  · exact h _ _ hid

end Script

/-! ## Changes to a compiler -/

namespace Compiler

/-- A change to what a compiler knows. A registry is in step, as calls leave it. -/
inductive Change where
  | useRegistry (registry : Registry) (inStep : registry.InStep)
  | addAlias (name existing : String)
  | addCommand (d : Definition) (builder : Builder)

/-- The compiler after one change. -/
def change (c : Compiler) : Change → Compiler
  | .useRegistry registry _ => c.withRegistry registry
  | .addAlias name existing => c.withAlias name existing
  | .addCommand d builder => c.withCommand d builder

/-- The default compiler after some changes. -/
def changed (changes : List Change) : Compiler := changes.foldl change default

/-- The fragment of a node and its warnings. -/
def write (c : Compiler) (node : Node) : Fragment × List Warning :=
  node.generate c.registry c.builders

theorem registry_withAlias (c : Compiler) (name existing : String) :
    (c.withAlias name existing).registry = c.registry.call (.addAlias name existing) := by
  show _ = (c.registry.addAlias? name existing).getD c.registry
  unfold withAlias
  rcases c.registry.addAlias? name existing with _ | registry
  · rfl
  · rcases Script.builtinBuilder? existing with _ | builder <;> rfl

theorem inStep_change {c : Compiler} (h : c.registry.InStep) (step : Change) :
    (c.change step).registry.InStep := by
  cases step with
  | useRegistry registry hregistry => exact hregistry
  | addAlias name existing =>
    rw [change, registry_withAlias]
    exact h.call _
  | addCommand d builder => exact h.register d

/-- The registry is in step after any changes. -/
theorem inStep_changed (changes : List Change) : (changed changes).registry.InStep := by
  induction changes using List.reverseRecOn with
  | nil => exact Registry.inStep_builtin
  | append_singleton changes step ih =>
    rw [changed, List.foldl_concat]
    exact inStep_change ih step

theorem ignoreIds_change {c : Compiler} (h : c.builders.IgnoreIds) (step : Change)
    (hstep : ∀ d builder, step = .addCommand d builder → Script.IgnoresId builder) :
    (c.change step).builders.IgnoreIds := by
  cases step with
  | useRegistry registry _ => exact h
  | addAlias name existing =>
    simp only [change, withAlias]
    split
    · exact h
    · split
      · rename_i hlayout
        exact h.insert name (Script.builtinBuilder?_ignoresId hlayout)
      · exact h
  | addCommand d builder => exact h.insert d.id (hstep d builder rfl)

/-- If all builders that were added take no notice of ids, then so do all that there are. -/
theorem ignoreIds_changed {changes : List Change}
    (h : ∀ d builder, .addCommand d builder ∈ changes → Script.IgnoresId builder) :
    (changed changes).builders.IgnoreIds := by
  have hrun : ∀ c : Compiler, c.builders.IgnoreIds →
      (changes.foldl change c).builders.IgnoreIds := by
    induction changes with
    | nil => exact fun _ hc => hc
    | cons step rest ih =>
      intro c hc
      apply ih fun d builder hm => h d builder (List.mem_cons_of_mem _ hm)
      apply ignoreIds_change hc
      rintro d builder rfl
      exact h d builder List.mem_cons_self
  exact hrun default fun _ _ => Script.builtinBuilder?_ignoresId

/-! ## How an alias is written -/

/-- The builder of an alias: the built-in layout that goes by the name of the target, else the
builder that the name of the alias has already, else the one for the program. -/
def aliasBuilder (c : Compiler) (name existing : String) (d : Definition) : Builder :=
  ((Script.builtinBuilder? existing).or
    ((c.builders.find? name).or (c.builders.find? d.program))).getD Script.template

theorem withAlias_of_lookup {c : Compiler} {existing : String} {d : Definition} (name : String)
    (h : c.registry.lookup existing = some d) :
    (c.withAlias name existing).registry = c.registry.register { d with id := name } ∧
    (c.withAlias name existing).builders.builderFor { d with id := name } =
      c.aliasBuilder name existing d := by
  unfold withAlias aliasBuilder Builders.builderFor
  rw [Registry.addAlias?_eq_some name h]
  rcases Script.builtinBuilder? existing with _ | builder
  · exact ⟨rfl, rfl⟩
  · exact ⟨rfl, by simp [Builders.insert]⟩

theorem write_command {c : Compiler} {name : String} {d : Definition}
    (h : c.registry.lookup name = some d) (id : String) (params : Params) :
    c.write ⟨id, .command name params⟩ =
      (c.builders.builderFor d d params,
        (d.params.filter params.lacks).map fun spec => .missingParameter id spec.name) := by
  unfold write Node.generate
  simp only [h]
  rfl

theorem write_alias {c : Compiler} (hstep : c.registry.InStep) {existing : String}
    {d : Definition} (name : String) (h : c.registry.lookup existing = some d) (id : String)
    (params : Params) :
    (c.withAlias name existing).write ⟨id, .command name params⟩ =
      (c.aliasBuilder name existing d { d with id := name } params,
        (d.params.filter params.lacks).map fun spec => .missingParameter id spec.name) := by
  obtain ⟨hregistry, hbuilder⟩ := withAlias_of_lookup name h
  have hfound : (c.withAlias name existing).registry.lookup name =
      some { d with id := name } := by
    rw [hregistry, hstep.lookup_register, if_pos rfl]
  rw [write_command hfound, hbuilder]

/-- Both names lead to the same builder. Either the target has no other builder than the
built-in layout of its name, and without such a layout the alias has no builder either; or the
target is a program under its own name, and it is found when the alias is looked up. -/
def SharesBuilder (c : Compiler) (name existing : String) (d : Definition) : Prop :=
  (c.builders.find? existing = Script.builtinBuilder? existing ∧
    ((Script.builtinBuilder? existing).isSome ∨ c.builders.find? name = none)) ∨
  (Script.builtinBuilder? existing = none ∧ c.builders.find? name = none ∧ d.program = existing)

theorem SharesBuilder.aliasBuilder_eq {c : Compiler} {name existing : String} {d : Definition}
    (h : c.SharesBuilder name existing d) (hid : d.id = existing) :
    c.aliasBuilder name existing d = c.builders.builderFor d := by
  unfold aliasBuilder Builders.builderFor
  rw [hid]
  rcases h with ⟨hown, hlayout | hfree⟩ | ⟨hlayout, hfree, hprogram⟩
  · obtain ⟨builder, hb⟩ := Option.isSome_iff_exists.mp hlayout
    rw [hown, hb]
    rfl
  · rw [hown, hfree, Option.none_or]
  · rw [hlayout, hfree, hprogram, Option.none_or, Option.none_or, Option.or_self]

/-! ## The law -/

/-- After any changes, an alias gives the warnings of its target. It gives the same fragments
exactly when the builder that it is written by agrees with the builder of the target; so it
does when both names lead to the same builder and no builder that was added looks at the id. -/
theorem when_an_alias_is_written_like_its_target (changes : List Change) (name existing : String)
    (d : Definition) (h : (changed changes).registry.lookup existing = some d) :
    (∀ id params,
      (((changed changes).withAlias name existing).write ⟨id, .command name params⟩).2 =
        ((changed changes).write ⟨id, .command existing params⟩).2) ∧
    ((∀ id params,
      ((changed changes).withAlias name existing).write ⟨id, .command name params⟩ =
        (changed changes).write ⟨id, .command existing params⟩) ↔
      ∀ params, (changed changes).aliasBuilder name existing d { d with id := name } params =
        (changed changes).builders.builderFor d d params) ∧
    ((∀ d' builder, .addCommand d' builder ∈ changes → Script.IgnoresId builder) →
      (changed changes).SharesBuilder name existing d →
      ∀ id params,
        ((changed changes).withAlias name existing).write ⟨id, .command name params⟩ =
          (changed changes).write ⟨id, .command existing params⟩) := by
  have hstep := inStep_changed changes
  have hid : d.id = existing := hstep.id_of_lookup h
  simp only [write_alias hstep name h, write_command h]
  refine ⟨fun _ _ => trivial, ?_, ?_⟩
  · simp only [Prod.mk.injEq, and_true]
    exact ⟨fun hall => hall "", fun hall _ => hall⟩
  · intro hignore hshares id params
    rw [hshares.aliasBuilder_eq hid, (ignoreIds_changed hignore).builderFor d d name params]

/-- Runs a command on every item that comes in. -/
def onEach : Builder := fun d params =>
  .command (d.program ++ " -0 " ++ (params.text? "command").getD "") true

/-- A command whose program has another name. -/
def fetch : Definition := { Definition.make "fetch" "fetch" .text "" with program := "xargs" }

/-- A name that has a builder becomes an alias of a command with a built-in layout, and loses
the builder. -/
theorem an_alias_of_find_is_written_like_find :
    (changed [.addAlias "search" "grep", .addCommand fetch onEach]).registry.lookup "find" =
      some Command.Catalog.find ∧
    ∀ id params,
      ((changed [.addAlias "search" "grep", .addCommand fetch onEach]).withAlias "fetch"
          "find").write ⟨id, .command "fetch" params⟩ =
        (changed [.addAlias "search" "grep", .addCommand fetch onEach]).write
          ⟨id, .command "find" params⟩ := by
  have hfind : (changed [.addAlias "search" "grep", .addCommand fetch onEach]).registry.lookup
      "find" = some Command.Catalog.find := by
    decide +kernel
  obtain ⟨_, _, hsame⟩ := when_an_alias_is_written_like_its_target _ "fetch" "find" _ hfind
  refine ⟨hfind, hsame ?_ (Or.inl ⟨rfl, Or.inl rfl⟩)⟩
  intro d builder hm
  simp only [List.mem_cons, List.not_mem_nil, or_false, reduceCtorEq, false_or,
    Change.addCommand.injEq] at hm
  obtain ⟨_, rfl⟩ := hm
  exact fun _ _ _ => rfl

/-- The alias of a command that came with its own builder is written by the template: the
builder stands under the name of the target, and neither the alias nor the program leads
there. -/
theorem an_alias_can_miss_the_builder_of_its_target :
    ¬ ∀ (changes : List Change) (name existing : String),
      (changed changes).registry.contains existing = true →
      ∀ id params,
        ((changed changes).withAlias name existing).write ⟨id, .command name params⟩ =
          (changed changes).write ⟨id, .command existing params⟩ := by
  intro hall
  have hsame := hall [.addCommand fetch onEach] "get" "fetch" (by decide +kernel) "n"
    (.ofList [("command", .string "rm")])
  revert hsame
  decide +kernel

end Compiler

end PipeScript
