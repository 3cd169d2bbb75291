-- The registry is an insertion-ordered map. Whatever calls it has seen, its index is in step with
-- its list, and it can be read off the log of what the calls registered: every id stands where it
-- came up first, and leads to what was registered under it last.
import Mathlib.Data.Finset.Card
import Mathlib.Data.List.Induction
import PipeScript.Command.Catalog
import PipeScript.Proofs.Command.Slots

namespace PipeScript

namespace Command

/-! ## Calls and their log -/

/-- A call that changes a registry. -/
inductive Call where
  | register (d : Definition)
  | addAlias (name existing : String)

/-- What a call does, wherever it is that commands are registered. An alias of an unknown command
changes nothing. -/
def Call.run {ρ : Type} (register : ρ → Definition → ρ)
    (addAlias? : ρ → String → String → Option ρ) (r : ρ) : Call → ρ
  | .register d => register r d
  | .addAlias name existing => (addAlias? r name existing).getD r

/-- The id that a call is made for. -/
def Call.id : Call → String
  | .register d => d.id
  | .addAlias name _ => name

/-- What was registered last under an id. -/
def latest (log : List Definition) (id : String) : Option Definition :=
  log.reverse.find? (·.id = id)

/-- What a call registers after what is in the log: the command itself, or a copy of the one
that was registered last under the existing id. -/
def Call.entry (log : List Definition) : Call → List Definition
  | .register d => [d]
  | .addAlias name existing => ((latest log existing).map ({ · with id := name })).toList

/-- Everything that some calls register, in order. -/
def log (calls : List Call) : List Definition :=
  calls.foldl (fun log call => log ++ call.entry log) []

theorem latest_append (log : List Definition) (d : Definition) (id : String) :
    latest (log ++ [d]) id = if d.id = id then some d else latest log id := by
  unfold latest
  rw [List.reverse_append, List.reverse_singleton, List.singleton_append, List.find?_cons]
  by_cases hd : d.id = id <;> simp [hd]

/-- The list after some calls. -/
def Listing.after (calls : List Call) : Listing :=
  calls.foldl (Call.run Listing.register Listing.addAlias?) .empty

namespace Registry

/-- The registry after one more call. -/
def call (r : Registry) (c : Call) : Registry := c.run register addAlias? r

/-- The registry after some calls. -/
def after (calls : List Call) : Registry := calls.foldl call empty

/-- A call registers one command under its id, or leaves the registry as it is. -/
theorem call_cases (r : Registry) (c : Call) :
    (∃ d, d.id = c.id ∧ r.call c = r.register d) ∨ r.call c = r := by
  cases c with
  | register d => exact Or.inl ⟨d, rfl, rfl⟩
  | addAlias name existing =>
    cases h : r.lookup existing with
    | none => exact Or.inr (by simp [call, Call.run, addAlias?, h])
    | some d =>
      refine Or.inl ⟨{ d with id := name }, rfl, ?_⟩
      simp only [call, Call.run, addAlias?_eq_some name h, Option.getD_some]

section

variable {r : Registry}

theorem InStep.call (h : r.InStep) (c : Call) : (r.call c).InStep := by
  obtain ⟨d, -, heq⟩ | heq := r.call_cases c
  · rw [heq]
    exact h.register d
  · rw [heq]
    exact h

/-- The list does the same call without an index. -/
theorem InStep.call_eq (h : r.InStep) (c : Call) :
    (r.call c).unindexed = c.run Listing.register Listing.addAlias? r.unindexed := by
  cases c with
  | register d => exact h.register_eq d
  | addAlias name existing =>
    show ((r.addAlias? name existing).getD r).unindexed = (r.unindexed.addAlias? name existing).getD _
    rw [← h.addAlias?_eq, Option.getD_map]

theorem InStep.lookup_call (h : r.InStep) (c : Call) {id : String} (hid : id ≠ c.id) :
    (r.call c).lookup id = r.lookup id := by
  obtain ⟨d, hd, heq⟩ | heq := r.call_cases c
  · rw [heq, h.lookup_register, hd, if_neg (Ne.symm hid)]
  · rw [heq]

theorem InStep.ids_call (h : r.InStep) (c : Call) : r.ids <+: (r.call c).ids := by
  obtain ⟨d, -, heq⟩ | heq := r.call_cases c
  · rw [heq, h.ids_register]
    split
    · exact List.prefix_rfl
    · exact List.prefix_append ..
  · rw [heq]

theorem InStep.getElem?_call (h : r.InStep) (c : Call) {i : Nat} {d : Definition}
    (hd : r.commands[i]? = some d) (hid : d.id ≠ c.id) : (r.call c).commands[i]? = some d := by
  obtain ⟨d', hd', heq⟩ | heq := r.call_cases c
  · rw [heq]
    exact h.getElem?_register hd (hd' ▸ hid)
  · rw [heq]
    exact hd

theorem addAlias?_eq_none (r : Registry) (name existing : String) :
    r.addAlias? name existing = none ↔ r.contains existing = false := by
  rw [contains_eq_isSome_lookup]
  unfold addAlias?
  cases r.lookup existing <;> simp

end

theorem after_append (calls : List Call) (c : Call) :
    after (calls ++ [c]) = (after calls).call c :=
  List.foldl_concat ..

/-- The list and the index are in step after any calls, and the list is what the calls make of a
list that has no index. -/
theorem refines_unindexed (calls : List Call) :
    (after calls).InStep ∧ (after calls).unindexed = Listing.after calls := by
  induction calls using List.reverseRecOn with
  | nil => exact ⟨inStep_empty, rfl⟩
  | append_singleton calls c ih =>
    obtain ⟨hstep, hlist⟩ := ih
    rw [after_append, hstep.call_eq, hlist]
    exact ⟨hstep.call c, (List.foldl_concat ..).symm⟩

/-- What is found through the index is what is found by going through that list. -/
theorem reads_unindexed (calls : List Call) (id : String) :
    (after calls).lookup id = (Listing.after calls).lookup id ∧
    (after calls).contains id = (Listing.after calls).contains id := by
  obtain ⟨hstep, hlist⟩ := refines_unindexed calls
  rw [hstep.lookup_eq, hstep.contains_eq, hlist]
  exact ⟨rfl, rfl⟩

/-- The built-in commands are registered one after the other. -/
theorem after_commands : after (Catalog.commands.map .register) = Registry.builtin := by
  unfold after Registry.builtin ofList
  rw [List.foldl_map]
  rfl

theorem inStep_builtin : Registry.builtin.InStep := by
  rw [← after_commands]
  exact (refines_unindexed _).1

/-! ## The registry follows its log -/

/-- The registry can be read off the log. -/
structure Follows (r : Registry) (log : List Definition) : Prop where
  mem : ∀ id, id ∈ r.ids ↔ id ∈ log.map (·.id)
  ordered : r.ids.Pairwise fun a b => (log.map (·.id)).idxOf a < (log.map (·.id)).idxOf b
  lookup : ∀ id, r.lookup id = latest log id

theorem follows_empty : empty.Follows [] where
  mem := by simp [ids, empty]
  ordered := .nil
  lookup := fun _ => rfl

theorem Follows.register {r : Registry} {log : List Definition} (h : r.Follows log)
    (hstep : r.InStep) (d : Definition) : (r.register d).Follows (log ++ [d]) := by
  -- what is in the log already came up first where it did
  have hfirst : ∀ id ∈ r.ids,
      ((log ++ [d]).map (·.id)).idxOf id = (log.map (·.id)).idxOf id := by
    intro id hid
    rw [List.map_append]
    exact List.idxOf_append_of_mem ((h.mem id).mp hid)
  have hordered : r.ids.Pairwise fun a b =>
      ((log ++ [d]).map (·.id)).idxOf a < ((log ++ [d]).map (·.id)).idxOf b := by
    apply h.ordered.imp_of_mem
    intro a b ha hb hlt
    rw [hfirst a ha, hfirst b hb]
    exact hlt
  refine ⟨?_, ?_, ?_⟩
  · intro id
    rw [hstep.ids_register]
    split
    · rename_i hd
      rw [h.mem, List.map_append, List.mem_append]
      constructor
      · exact Or.inl
      · rintro (hid | hid)
        · exact hid
        · cases List.mem_singleton.mp hid
          exact (h.mem d.id).mp hd
    · simp [h.mem]
  · rw [hstep.ids_register]
    split
    · exact hordered
    · rename_i hd
      rw [List.pairwise_append]
      refine ⟨hordered, List.pairwise_singleton .., ?_⟩
      intro a ha b hb
      cases List.mem_singleton.mp hb
      have hnew : d.id ∉ log.map (·.id) := fun hm => hd ((h.mem d.id).mpr hm)
      rw [hfirst a ha, List.map_append, List.idxOf_append_of_notMem hnew]
      have := List.idxOf_lt_length_of_mem ((h.mem a).mp ha)
      omega
  · intro id
    rw [hstep.lookup_register, latest_append, h.lookup]

theorem Follows.call {r : Registry} {log : List Definition} (h : r.Follows log)
    (hstep : r.InStep) (c : Call) : (r.call c).Follows (log ++ c.entry log) := by
  cases c with
  | register d => exact h.register hstep d
  | addAlias name existing =>
    simp only [Call.entry, ← h.lookup existing]
    cases hfound : r.lookup existing with
    | none => simpa [Registry.call, Call.run, addAlias?, hfound] using h
    | some d =>
      simp only [Registry.call, Call.run, addAlias?_eq_some name hfound, Option.getD_some]
      exact h.register hstep _

/-- After any calls the registry follows their log. -/
theorem follows_after (calls : List Call) : (after calls).Follows (log calls) := by
  induction calls using List.reverseRecOn with
  | nil => exact follows_empty
  | append_singleton calls c ih =>
    rw [after_append, log, List.foldl_concat]
    exact ih.call (refines_unindexed calls).1 c

theorem Follows.nodup {r : Registry} {log : List Definition} (h : r.Follows log) :
    r.ids.Nodup := by
  apply h.ordered.imp
  intro a b hlt hab
  rw [hab] at hlt
  omega

theorem Follows.size {r : Registry} {log : List Definition} (h : r.Follows log) :
    r.size = (log.map (·.id)).toFinset.card := by
  have hsame : r.ids.toFinset = (log.map (·.id)).toFinset := by
    ext id
    rw [List.mem_toFinset, List.mem_toFinset, h.mem]
  rw [← hsame, List.toFinset_card_of_nodup h.nodup]
  simp [Registry.size, ids]

/-! ## The law -/

/-- The ids that some calls register, in order and as often as they are registered. -/
def logged (calls : List Call) : List String := (log calls).map (·.id)

/-- The built-in registry comes from calls like any other. After any calls, an id leads to a slot
exactly if the command in that slot has the id, so that the registry has the commands of a list
without an index and answers as the list does. No id is listed twice, ids are listed in the order in which they were registered first,
there are as many as were registered, and each leads to the command that was registered under it
last. One more call keeps every id in its place and every other command as it is. An alias of an
unknown command is refused and changes nothing; any other one leads to a copy that differs in its
id alone. -/
theorem the_registry_is_an_insertion_ordered_map :
    Registry.builtin = after (Catalog.commands.map .register) ∧
    ∀ calls : List Call,
      ((after calls).InStep ∧ (after calls).unindexed = Listing.after calls ∧
        ∀ id, (after calls).lookup id = (Listing.after calls).lookup id ∧
          (after calls).contains id = (Listing.after calls).contains id) ∧
      ((after calls).ids.Nodup ∧
        (after calls).ids.Pairwise
          (fun a b => (logged calls).idxOf a < (logged calls).idxOf b)) ∧
      (after calls).size = (logged calls).toFinset.card ∧
      (∀ id, (after calls).contains id = true ↔ id ∈ logged calls) ∧
      (∀ id, (after calls).lookup id = latest (log calls) id ∧
        ∀ d, (after calls).lookup id = some d → d.id = id) ∧
      (∀ c : Call,
        (∀ id, id ≠ c.id → ((after calls).call c).lookup id = (after calls).lookup id) ∧
        (after calls).ids <+: ((after calls).call c).ids ∧
        ∀ (i : Nat) (d : Definition), (after calls).commands[i]? = some d → d.id ≠ c.id →
          ((after calls).call c).commands[i]? = some d) ∧
      ∀ name existing,
        ((after calls).addAlias? name existing = none ∧
            (after calls).call (.addAlias name existing) = after calls ↔
          (after calls).contains existing = false) ∧
        ∀ d : Definition, (after calls).lookup existing = some d →
          (after calls).addAlias? name existing
              = some ((after calls).call (.addAlias name existing)) ∧
            ((after calls).call (.addAlias name existing)).lookup name
              = some { d with id := name } := by
  refine ⟨after_commands.symm, fun calls => ?_⟩
  obtain ⟨hstep, hlist⟩ := refines_unindexed calls
  have hlog := follows_after calls
  refine ⟨⟨hstep, hlist, reads_unindexed calls⟩, ⟨hlog.nodup, hlog.ordered⟩, hlog.size,
    ?_, ?_, ?_, ?_⟩
  · intro id
    rw [hstep.contains_iff]
    exact hlog.mem id
  · exact fun id => ⟨hlog.lookup id, fun _ hd => hstep.id_of_lookup hd⟩
  · exact fun c => ⟨fun _ hid => hstep.lookup_call c hid, hstep.ids_call c,
      fun _ _ => hstep.getElem?_call c⟩
  · intro name existing
    refine ⟨⟨fun h => (addAlias?_eq_none _ name existing).mp h.1, fun h => ?_⟩, fun d hd => ?_⟩
    · have hnone := (addAlias?_eq_none _ name existing).mpr h
      exact ⟨hnone, by simp [call, Call.run, hnone]⟩
    · have hsome := addAlias?_eq_some name hd
      have hcall : (after calls).call (.addAlias name existing) =
          (after calls).register { d with id := name } := by
        simp [call, Call.run, hsome]
      rw [hcall, hstep.lookup_register, if_pos rfl]
      exact ⟨hsome, rfl⟩

/-- An alias that comes too early, one that stands for itself, a command that is replaced, and
an alias that replaces another command. -/
def history : List Call :=
  [.addAlias "search" "grep", .register Catalog.grep, .register Catalog.sed,
    .addAlias "search" "grep", .addAlias "grep" "grep",
    .register { Catalog.grep with label := "filter" }, .addAlias "sed" "search"]

theorem an_alias_outlives_what_it_was_copied_from :
    logged history = ["grep", "sed", "search", "grep", "grep", "sed"] ∧
    (after history).ids = ["grep", "sed", "search"] ∧
    (after history).index.entries = [("grep", 0), ("sed", 1), ("search", 2)] ∧
    (after history).InStep ∧ (after history).ids.Nodup ∧
    (after history).contains "awk" = false ∧ (after history).addAlias? "mawk" "awk" = none ∧
    (after history).lookup "search" = some { Catalog.grep with id := "search" } ∧
    ((after history).call (.addAlias "find" "search")).lookup "find" =
      some { Catalog.grep with id := "find" } ∧
    ((after history).call (.addAlias "find" "search")).lookup "sed" =
      (after history).lookup "sed" := by
  obtain ⟨_, hmap⟩ := the_registry_is_an_insertion_ordered_map
  obtain ⟨⟨hstep, _⟩, ⟨hnodup, _⟩, _, _, _, hcall, halias⟩ := hmap history
  have hunknown : (after history).contains "awk" = false := by decide +kernel
  have hsearch : (after history).lookup "search" = some { Catalog.grep with id := "search" } := by
    decide +kernel
  refine ⟨by decide +kernel, by decide +kernel, by decide +kernel, hstep, hnodup, hunknown, ?_,
    hsearch, ?_, ?_⟩
  · exact ((halias "mawk" "awk").1.mpr hunknown).1
  · exact ((halias "find" "search").2 _ hsearch).2
  · exact (hcall (.addAlias "find" "search")).1 "sed" (by decide)

end Registry

end Command

end PipeScript
