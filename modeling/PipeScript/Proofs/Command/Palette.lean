-- The palette shows the registry by category. Whatever calls the registry has seen, every command
-- stands in one group, the one of the category that it was registered under last, and the commands
-- of a group keep the order of the registry.
import PipeScript.Proofs.Command.Histories

namespace PipeScript

namespace Command

/-! ## Groups -/

namespace Registry

theorem mem_inCategory {r : Registry} {category : Category} {d : Definition} :
    d ∈ r.inCategory category ↔ d ∈ r.commands ∧ d.category = category := by
  simp [inCategory]

/-- A group is what its category holds, if that is anything. -/
theorem mem_byCategory {r : Registry} {group : Category × List Definition} :
    group ∈ r.byCategory ↔ group.2 = r.inCategory group.1 ∧ group.2 ≠ [] := by
  obtain ⟨category, members⟩ := group
  simp only [byCategory, List.mem_filter, List.mem_map, Prod.mk.injEq, Bool.not_eq_true',
    List.isEmpty_eq_false_iff]
  constructor
  · rintro ⟨⟨c, -, rfl, rfl⟩, hne⟩
    exact ⟨rfl, hne⟩
  · rintro ⟨rfl, hne⟩
    exact ⟨⟨category, category.mem_all, rfl, rfl⟩, hne⟩

/-- Groups come in the order of all categories, each category once. -/
theorem categories_increase (r : Registry) :
    (r.byCategory.map (·.1)).Pairwise
      fun a b => Category.all.idxOf a < Category.all.idxOf b := by
  have hall : Category.all.Pairwise
      fun a b => Category.all.idxOf a < Category.all.idxOf b := by decide
  have hsub : (r.byCategory.map (·.1)).Sublist Category.all := by
    have hfilter := (List.filter_sublist (p := fun group => !group.2.isEmpty)
      (l := Category.all.map fun category => (category, r.inCategory category))).map Prod.fst
    rwa [List.map_map, show (Prod.fst ∘ fun category => (category, r.inCategory category)) = id
      from rfl, List.map_id] at hfilter
  exact hall.sublist hsub

/-- Every command of a registry with distinct ids stands once in the group of its category, and
its id in no other group. -/
theorem exists_group {r : Registry} (hids : r.ids.Nodup) {d : Definition} (hd : d ∈ r.commands) :
    ∃ group ∈ r.byCategory, group.1 = d.category ∧ group.2.count d = 1 ∧
      ∀ other ∈ r.byCategory, (∃ e ∈ other.2, e.id = d.id) → other = group := by
  have hmem : d ∈ r.inCategory d.category := mem_inCategory.mpr ⟨hd, rfl⟩
  have hnodup : (r.inCategory d.category).Nodup :=
    (List.Nodup.of_map _ hids).sublist List.filter_sublist
  refine ⟨(d.category, r.inCategory d.category), ?_, rfl, ?_, ?_⟩
  · exact mem_byCategory.mpr ⟨rfl, List.ne_nil_of_mem hmem⟩
  · exact List.count_eq_one_of_mem hnodup hmem
  · rintro ⟨category, members⟩ hother ⟨e, he, hid⟩
    have hmembers : members = r.inCategory category := (mem_byCategory.mp hother).1
    subst hmembers
    obtain ⟨hmember, rfl⟩ := mem_inCategory.mp he
    -- ids are told apart, so the command with this id is the one
    obtain rfl : e = d := List.inj_on_of_nodup_map hids hmember hd hid
    rfl

/-! ## The law -/

/-- After any calls, the groups come in the order of all categories, and none is empty. The
commands of the registry are those that were registered last under their ids; each of them stands
in the group of the category that it has now, once, and in no other group is there a command with
its id. Within a group the commands have the order of the registry. -/
theorem the_palette_is_a_stable_partition (calls : List Call) :
    ((after calls).byCategory.map (·.1)).Pairwise
      (fun a b => Category.all.idxOf a < Category.all.idxOf b) ∧
    (∀ group ∈ (after calls).byCategory, group.2 ≠ []) ∧
    (∀ d, d ∈ (after calls).commands ↔ latest (log calls) d.id = some d) ∧
    (∀ d ∈ (after calls).commands, ∃ group ∈ (after calls).byCategory,
      group.1 = d.category ∧ group.2.count d = 1 ∧
        ∀ other ∈ (after calls).byCategory, (∃ e ∈ other.2, e.id = d.id) → other = group) ∧
    ∀ group ∈ (after calls).byCategory, group.2.Sublist (after calls).commands := by
  have hlog := follows_after calls
  refine ⟨categories_increase _, ?_, fun d => ?_, ?_, ?_⟩
  · exact fun group hgroup => (mem_byCategory.mp hgroup).2
  · rw [(refines_unindexed calls).1.mem_commands, hlog.lookup]
  · exact fun d hd => exists_group hlog.nodup hd
  · intro group hgroup
    rw [(mem_byCategory.mp hgroup).1]
    exact List.filter_sublist

/-- A command of the text group, in another group. -/
def systemGrep : Definition := { Catalog.grep with category := .system }

/-- A command that is known under two ids, one of which moves to another category. -/
def moved : List Call :=
  [.register Catalog.grep, .register Catalog.ps, .register Catalog.sed,
    .addAlias "search" "grep", .register systemGrep]

theorem a_command_moves_to_its_new_category :
    (after moved).ids = ["grep", "ps", "sed", "search"] ∧
    (after moved).byCategory.map (fun group => (group.1, group.2.map (·.id))) =
      [(.text, ["sed", "search"]), (.system, ["grep", "ps"])] ∧
    ∃ group ∈ (after moved).byCategory, group.1 = .system ∧
      ∀ other ∈ (after moved).byCategory, (∃ e ∈ other.2, e.id = "grep") → other = group := by
  obtain ⟨-, -, hcommands, hgroups, -⟩ := the_palette_is_a_stable_partition moved
  have hlatest : latest (log moved) systemGrep.id = some systemGrep := by decide +kernel
  obtain ⟨group, hgroup, hcategory, -, honly⟩ := hgroups systemGrep ((hcommands _).mpr hlatest)
  exact ⟨by decide +kernel, by decide +kernel, group, hgroup, hcategory, honly⟩

end Registry

end Command

end PipeScript
