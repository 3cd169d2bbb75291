-- Settings can be written in many ways: each field under any of its names, in any order, between
-- keys that mean nothing here, and not at all where it has its default. All of them are read as the
-- same settings, and a field that is given twice is refused under whatever names it comes.
import PipeScript.Proofs.Json.Grammar
import PipeScript.Script.Settings

namespace PipeScript

/-! ## What has been read -/

namespace Reader

variable {α β : Type}

theorem bind_eq_ok {x : Except ReadError α} {next : α → Except ReadError β} {b : β} :
    (x >>= next) = .ok b ↔ ∃ a, x = .ok a ∧ next a = .ok b := by
  cases x <;> simp [bind, Except.bind]

theorem spell_eq_ok {pieces : List Piece} {s : String} :
    spell pieces = .ok s ↔ Piece.text? pieces = some s := by
  unfold spell
  split <;> simp [*]

theorem mismatch_ne_ok {expected : String} {d : Document} {a : α} :
    mismatch expected d ≠ .ok a := by
  unfold mismatch
  cases found d <;> simp [bind, Except.bind, throw, throwThe, MonadExceptOf.throw]

theorem bool_eq_ok {room : Nat} {d : Document} {value : Bool} (h : bool room d = .ok value) :
    d = .scalar (.bool value) := by
  unfold bool at h
  split at h
  · cases h
    rfl
  · exact absurd h mismatch_ne_ok

theorem text_eq_ok {room : Nat} {d : Document} {value : String}
    (h : text room d = .ok value) :
    ∃ pieces, Piece.text? pieces = some value ∧ d = .scalar (.text pieces) := by
  unfold text at h
  split at h
  · exact ⟨_, spell_eq_ok.mp h, rfl⟩
  · exact absurd h mismatch_ne_ok

theorem sound_of_mem {members : List (List Piece × Document)}
    (h : soundMembers members = true) : ∀ m ∈ members, sound m.2 = true := by
  induction members with
  | nil => simp
  | cons m rest ih =>
    simp only [soundMembers, Bool.and_eq_true] at h
    exact List.forall_mem_cons.mpr ⟨h.1, ih h.2⟩

end Reader

namespace Script

namespace Interpreter

theorem named_eq_ok {name : String} {interpreter : Interpreter} :
    named name = .ok interpreter ↔ name = interpreter.name := by
  constructor
  · intro h
    unfold named at h
    split at h
    · rename_i found hfound
      cases h
      have hname := List.find?_some hfound
      exact (of_decide_eq_true hname).symm
    · cases h
  · rintro rfl
    cases interpreter <;> rfl

theorem reader_eq_ok {room : Nat} {d : Document} {interpreter : Interpreter}
    (h : reader room d = .ok interpreter) :
    ∃ pieces, Piece.text? pieces = some interpreter.name ∧
      (d = .scalar (.text pieces) ∨ d = .object [(pieces, .scalar .null)] true) := by
  unfold reader at h
  split at h
  · rename_i pieces
    obtain ⟨name, hname, h⟩ := Reader.bind_eq_ok.mp h
    rw [named_eq_ok.mp h] at hname
    exact ⟨pieces, Reader.spell_eq_ok.mp hname, .inl rfl⟩
  · rename_i key value more closed
    obtain ⟨-, -, h⟩ := Reader.bind_eq_ok.mp h
    obtain ⟨name, hname, h⟩ := Reader.bind_eq_ok.mp h
    obtain ⟨interpreter', hnamed, h⟩ := Reader.bind_eq_ok.mp h
    obtain ⟨_, hunit, h⟩ := Reader.bind_eq_ok.mp h
    obtain ⟨hclosed, rfl⟩ : (more.isEmpty && closed) = true ∧ interpreter' = interpreter := by
      unfold Reader.provided at h
      split at h
      · exact ⟨‹_›, Except.ok.inj h⟩
      · cases h
    obtain ⟨rfl, rfl⟩ : more = [] ∧ closed = true := by simpa using hclosed
    obtain rfl : value = .scalar .null := by
      unfold unit at hunit
      split at hunit
      · rfl
      · exact absurd hunit Reader.mismatch_ne_ok
    rw [named_eq_ok.mp hnamed] at hname
    exact ⟨key, Reader.spell_eq_ok.mp hname, .inr rfl⟩
  · cases h

end Interpreter

namespace Settings

/-! ## Fields -/

namespace Field

def all : List Field :=
  [.interpreter, .exitOnError, .exitOnUnset, .pipefail, .trace, .description, .author, .version]

theorem mem_all (f : Field) : f ∈ all := by
  cases f <;> decide

instance {p : Field → Prop} [DecidablePred p] : Decidable (∀ f, p f) :=
  decidable_of_iff (∀ f ∈ all, p f) ⟨fun h f => h f (mem_all f), fun h f _ => h f⟩

/-- The name that settings are written under. -/
def name : Field → String
  | .interpreter => "shebang_flavor"
  | .exitOnError => "set_e"
  | .exitOnUnset => "set_u"
  | .pipefail => "set_pipefail"
  | .trace => "debug"
  | .description => "description"
  | .author => "author"
  | .version => "version"

/-- The other names of a field. -/
def aliases : Field → List String
  | .interpreter => ["shebang", "shebangFlavor"]
  | .exitOnError => ["setE"]
  | .exitOnUnset => ["setU"]
  | .pipefail => ["setPipefail"]
  | .trace | .description | .author | .version => []

def names (f : Field) : List String := f.name :: f.aliases

def Value : Field → Type
  | .interpreter => Interpreter
  | .exitOnError | .exitOnUnset | .pipefail | .trace => Bool
  | .description | .author | .version => String

def get : (f : Field) → Settings → f.Value
  | .interpreter, s => s.interpreter
  | .exitOnError, s => s.exitOnError
  | .exitOnUnset, s => s.exitOnUnset
  | .pipefail, s => s.pipefail
  | .trace, s => s.trace
  | .description, s => s.description
  | .author, s => s.author
  | .version, s => s.version

/-- A document that writes a value of the field. A string may be spelled with any escapes, and an
interpreter may also be the only key of an object. -/
def Writes : (f : Field) → f.Value → Document → Prop
  | .interpreter, value, d =>
    ∃ pieces, Piece.text? pieces = some value.name ∧
      (d = .scalar (.text pieces) ∨ d = .object [(pieces, .scalar .null)] true)
  | .exitOnError, value, d | .exitOnUnset, value, d | .pipefail, value, d | .trace, value, d =>
    d = .scalar (.bool value)
  | .description, value, d | .author, value, d | .version, value, d =>
    ∃ pieces, Piece.text? pieces = some value ∧ d = .scalar (.text pieces)

/-- A key that is a name of the field, however it is spelled. -/
def Named (f : Field) (key : List Piece) : Prop := ∃ name ∈ f.names, Piece.text? key = some name

instance (f : Field) (key : List Piece) : Decidable (f.Named key) :=
  inferInstanceAs (Decidable (∃ name ∈ f.names, Piece.text? key = some name))

/-- How a value of the field is read. -/
def reader : (f : Field) → Reader f.Value
  | .interpreter => Interpreter.reader
  | .exitOnError | .exitOnUnset | .pipefail | .trace => Reader.bool
  | .description | .author | .version => Reader.text

theorem field?_eq_some {f : Field} {key : String} : field? key = some f ↔ key ∈ f.names := by
  constructor
  · intro h
    unfold field? at h
    grind [names, name, aliases]
  · have hall : ∀ name ∈ f.names, field? name = some f := by
      cases f <;> decide
    exact hall key

theorem ext_get {s t : Settings} (h : ∀ f : Field, f.get s = f.get t) : s = t := by
  cases s
  cases t
  have hinterpreter := h .interpreter
  have hexitOnError := h .exitOnError
  have hexitOnUnset := h .exitOnUnset
  have hpipefail := h .pipefail
  have htrace := h .trace
  have hdescription := h .description
  have hauthor := h .author
  have hversion := h .version
  simp only [get] at *
  simp [*]

theorem named_iff {f : Field} {key : List Piece} :
    f.Named key ↔ ∃ name, Piece.text? key = some name ∧ field? name = some f := by
  constructor
  · rintro ⟨name, hmem, hkey⟩
    exact ⟨name, hkey, field?_eq_some.mpr hmem⟩
  · rintro ⟨name, hkey, hname⟩
    exact ⟨name, field?_eq_some.mp hname, hkey⟩

/-- No key is a name of two fields. -/
theorem Named.unique {f g : Field} {key : List Piece} (hf : f.Named key) (hg : g.Named key) :
    f = g := by
  obtain ⟨name, hkey, hf⟩ := named_iff.mp hf
  obtain ⟨name', hkey', hg⟩ := named_iff.mp hg
  obtain rfl : name = name' := Option.some.inj (hkey.symm.trans hkey')
  exact Option.some.inj (hf.symm.trans hg)

theorem reader_of_writes {f : Field} {value : f.Value} {d : Document} (h : f.Writes value d)
    (room : Nat) : f.reader (room + 1) d = .ok value := by
  cases f with
  | exitOnError | exitOnUnset | pipefail | trace =>
    obtain rfl : d = _ := h
    rfl
  | description | author | version =>
    obtain ⟨pieces, hs, rfl⟩ := h
    exact Reader.spell_eq_ok.mpr hs
  | interpreter =>
    obtain ⟨pieces, hs, rfl | rfl⟩ := h
    · exact Reader.bind_eq_ok.mpr
        ⟨_, Reader.spell_eq_ok.mpr hs, Interpreter.named_eq_ok.mpr rfl⟩
    · exact Reader.bind_eq_ok.mpr ⟨room, rfl, Reader.bind_eq_ok.mpr
        ⟨_, Reader.spell_eq_ok.mpr hs, Reader.bind_eq_ok.mpr
          ⟨_, Interpreter.named_eq_ok.mpr rfl, rfl⟩⟩⟩

theorem writes_of_reader {f : Field} {room : Nat} {value : f.Value} {d : Document}
    (h : f.reader room d = .ok value) : f.Writes value d := by
  cases f with
  | exitOnError | exitOnUnset | pipefail | trace => exact Reader.bool_eq_ok h
  | description | author | version => exact Reader.text_eq_ok h
  | interpreter => exact Interpreter.reader_eq_ok h

end Field

/-! ## Drafts -/

namespace Draft

/-- What has been read for a field. -/
def slot : (f : Field) → Draft → Option f.Value
  | .interpreter, d => d.interpreter
  | .exitOnError, d => d.exitOnError
  | .exitOnUnset, d => d.exitOnUnset
  | .pipefail, d => d.pipefail
  | .trace, d => d.trace
  | .description, d => d.description
  | .author, d => d.author
  | .version, d => d.version

/-- A draft with a value for a field. -/
def fill : (f : Field) → Draft → Option f.Value → Draft
  | .interpreter, d, interpreter => { d with interpreter }
  | .exitOnError, d, exitOnError => { d with exitOnError }
  | .exitOnUnset, d, exitOnUnset => { d with exitOnUnset }
  | .pipefail, d, pipefail => { d with pipefail }
  | .trace, d, trace => { d with trace }
  | .description, d, description => { d with description }
  | .author, d, author => { d with author }
  | .version, d, version => { d with version }

theorem slot_empty (f : Field) : slot f {} = none := by
  cases f <;> rfl

theorem slot_fill (f : Field) (d : Draft) (value : Option f.Value) :
    slot f (fill f d value) = value := by
  cases f <;> rfl

theorem slot_fill_of_ne {f g : Field} (h : f ≠ g) (d : Draft) (value : Option f.Value) :
    slot g (fill f d value) = slot g d := by
  cases f <;> cases g <;> first | rfl | exact absurd rfl h

theorem get_settings (f : Field) (d : Draft) :
    f.get d.settings = (slot f d).getD (f.get default) := by
  cases f <;> rfl

/-- A field is read like every other: once, and into its own slot. -/
theorem read_of_field? {key : String} {f : Field} (h : field? key = some f) (room : Nat) (d : Draft)
    (value : Document) :
    d.read room key value = do
      let value ← Shape.once f.name (slot f d) (f.reader room value)
      return fill f d value := by
  unfold Draft.read
  rw [h]
  cases f <;> rfl

theorem read_of_not_field? {key : String} (h : field? key = none) (room : Nat) (d : Draft)
    (value : Document) :
    d.read room key value = do
      Reader.skip value
      return d := by
  unfold Draft.read
  rw [h]

/-- Takes in one member of an object. -/
def take (room : Nat) (d : Draft) (member : List Piece × Document) : Except ReadError Draft := do
  d.read room (← Reader.spell member.1) member.2

variable {room : Nat} {d d' : Draft} {member : List Piece × Document} {f : Field}

/-! ## One member -/

theorem take_named (hname : f.Named member.1) {value : f.Value} (hvalue : f.Writes value member.2)
    (hfree : slot f d = none) : take (room + 1) d member = .ok (fill f d (some value)) := by
  obtain ⟨name, hkey, hfield⟩ := Field.named_iff.mp hname
  refine Reader.bind_eq_ok.mpr ⟨name, Reader.spell_eq_ok.mpr hkey, ?_⟩
  rw [read_of_field? hfield, hfree, Shape.once, Field.reader_of_writes hvalue]
  rfl

/-- A field that has its value is refused, whatever it is given now. -/
theorem take_again (hname : f.Named member.1) (hfull : slot f d ≠ none) :
    take room d member = .error (.duplicateField f.name) := by
  obtain ⟨name, hkey, hfield⟩ := Field.named_iff.mp hname
  obtain ⟨value, hvalue⟩ := Option.ne_none_iff_exists'.mp hfull
  unfold take
  rw [Reader.spell_eq_ok.mpr hkey]
  simp only [bind, Except.bind]
  rw [read_of_field? hfield, hvalue]
  rfl

theorem take_other (hkey : Piece.text? member.1 ≠ none) (hother : ∀ f : Field, ¬ f.Named member.1)
    (hsound : Reader.sound member.2 = true) : take room d member = .ok d := by
  obtain ⟨name, hkey⟩ := Option.ne_none_iff_exists'.mp hkey
  have hfield : field? name = none := by
    rw [Option.eq_none_iff_forall_ne_some]
    exact fun f hf => hother f (Field.named_iff.mpr ⟨name, hkey, hf⟩)
  refine Reader.bind_eq_ok.mpr ⟨name, Reader.spell_eq_ok.mpr hkey, ?_⟩
  rw [read_of_not_field? hfield, Reader.skip, if_pos hsound]
  rfl

/-- A member that gives a field of settings fills the slot of this field and no other. -/
theorem take_gives {s : Settings} (hkey : Piece.text? member.1 ≠ none)
    (hvalue : ∀ f : Field, f.Named member.1 → f.Writes (f.get s) member.2)
    (hsound : Reader.sound member.2 = true)
    (hfree : ∀ f : Field, f.Named member.1 → slot f d = none) :
    ∃ d', take (room + 1) d member = .ok d' ∧ ∀ f : Field,
      (f.Named member.1 → slot f d' = some (f.get s)) ∧
      (¬ f.Named member.1 → slot f d' = slot f d) := by
  by_cases hnamed : ∃ f : Field, f.Named member.1
  · obtain ⟨f, hf⟩ := hnamed
    refine ⟨_, take_named hf (hvalue f hf) (hfree f hf), fun g => ⟨fun hg => ?_, fun hg => ?_⟩⟩
    · obtain rfl := hf.unique hg
      exact slot_fill f d _
    · have hne : f ≠ g := by
        rintro rfl
        exact hg hf
      exact slot_fill_of_ne hne d _
  · refine ⟨d, take_other hkey (fun f hf => hnamed ⟨f, hf⟩) hsound, fun g => ?_⟩
    exact ⟨fun hg => absurd ⟨g, hg⟩ hnamed, fun _ => rfl⟩

/-- A member that was taken in found the slot of its field free and filled it with what it
writes. -/
theorem slot_of_take (h : take room d member = .ok d') :
    Piece.text? member.1 ≠ none ∧ ∀ f : Field,
      (f.Named member.1 → slot f d = none ∧
        ∃ value, slot f d' = some value ∧ f.Writes value member.2) ∧
      (¬ f.Named member.1 → slot f d' = slot f d) := by
  obtain ⟨name, hname, h⟩ := Reader.bind_eq_ok.mp h
  have hkey := Reader.spell_eq_ok.mp hname
  refine ⟨by simp [hkey], fun g => ?_⟩
  cases hfield : field? name with
  | none =>
    rw [read_of_not_field? hfield] at h
    obtain ⟨_, -, h⟩ := Reader.bind_eq_ok.mp h
    obtain rfl : d = d' := Except.ok.inj h
    refine ⟨fun hg => ?_, fun _ => rfl⟩
    obtain ⟨name', hkey', hfield'⟩ := Field.named_iff.mp hg
    obtain rfl : name = name' := Option.some.inj (hkey.symm.trans hkey')
    rw [hfield] at hfield'
    cases hfield'
  | some f =>
    have hf : f.Named member.1 := Field.named_iff.mpr ⟨name, hkey, hfield⟩
    rw [read_of_field? hfield] at h
    obtain ⟨slotted, honce, h⟩ := Reader.bind_eq_ok.mp h
    obtain rfl : fill f d slotted = d' := Except.ok.inj h
    refine ⟨fun hg => ?_, fun hg => ?_⟩
    · obtain rfl := hf.unique hg
      unfold Shape.once at honce
      split at honce
      · cases honce
      · rename_i hfree
        obtain ⟨value, hvalue, honce⟩ := Reader.bind_eq_ok.mp honce
        obtain rfl : some value = slotted := Except.ok.inj honce
        exact ⟨hfree, value, slot_fill f d _, Field.writes_of_reader hvalue⟩
    · have hne : f ≠ g := by
        rintro rfl
        exact hg hf
      exact slot_fill_of_ne hne d _

end Draft

/-! ## All members -/

/-- The members of an object give fields of these settings, none of them twice. Keys that are no
names of fields have any values. -/
structure Gives (s : Settings) (members : List (List Piece × Document)) : Prop where
  keys : ∀ m ∈ members, Piece.text? m.1 ≠ none
  values : ∀ m ∈ members, ∀ f : Field, f.Named m.1 → f.Writes (f.get s) m.2
  once : members.Pairwise fun m m' => ∀ f : Field, f.Named m.1 → ¬ f.Named m'.1

/-- The members of an object write these settings: what they leave out has its default. -/
structure WrittenAs (s : Settings) (members : List (List Piece × Document)) : Prop extends
    s.Gives members where
  others : ∀ f : Field, (∀ m ∈ members, ¬ f.Named m.1) → f.get s = f.get default

namespace Draft

variable {room : Nat} {d d' : Draft} {members : List (List Piece × Document)}

/-- Members that give fields of settings fill the slots of these fields and no others. -/
theorem run_gives (room : Nat) {s : Settings} (h : s.Gives members)
    (hsound : ∀ m ∈ members, Reader.sound m.2 = true)
    (hfree : ∀ m ∈ members, ∀ f : Field, f.Named m.1 → slot f d = none) :
    ∃ d', members.foldlM (take (room + 1)) d = .ok d' ∧ ∀ f : Field,
      ((∃ m ∈ members, f.Named m.1) → slot f d' = some (f.get s)) ∧
      ((∀ m ∈ members, ¬ f.Named m.1) → slot f d' = slot f d) := by
  induction members generalizing d with
  | nil => exact ⟨d, rfl, by simp⟩
  | cons m rest ih =>
    obtain ⟨hkeys, hvalues, honce⟩ := h
    rw [List.forall_mem_cons] at hkeys hvalues hsound hfree
    rw [List.pairwise_cons] at honce
    obtain ⟨d₁, htake, hfirst⟩ := take_gives hkeys.1 hvalues.1 hsound.1 hfree.1
    -- no other member is about a field of the first one
    have hrest : ∀ m' ∈ rest, ∀ f : Field, f.Named m'.1 → slot f d₁ = none := by
      intro m' hm' f hf
      rw [(hfirst f).2 fun hm => honce.1 m' hm' f hm hf]
      exact hfree.2 m' hm' f hf
    obtain ⟨d', hrun, hslots⟩ := ih ⟨hkeys.2, hvalues.2, honce.2⟩ hsound.2 hrest
    refine ⟨d', ?_, fun f => ⟨fun hf => ?_, fun hf => ?_⟩⟩
    · rw [List.foldlM_cons]
      exact Reader.bind_eq_ok.mpr ⟨d₁, htake, hrun⟩
    · rw [List.exists_mem_cons_iff] at hf
      rcases hf with hf | hf
      · rw [(hslots f).2 fun m' hm' => honce.1 m' hm' f hf]
        exact (hfirst f).1 hf
      · exact (hslots f).1 hf
    · rw [List.forall_mem_cons] at hf
      rw [(hslots f).2 hf.2, (hfirst f).2 hf.1]

/-- Members that were taken in filled free slots, each with what it writes, and no slot twice. -/
theorem slots_of_run (h : members.foldlM (take room) d = .ok d') :
    (∀ m ∈ members, Piece.text? m.1 ≠ none) ∧
    (∀ m ∈ members, ∀ f : Field, f.Named m.1 →
      slot f d = none ∧ ∃ value, slot f d' = some value ∧ f.Writes value m.2) ∧
    (members.Pairwise fun m m' => ∀ f : Field, f.Named m.1 → ¬ f.Named m'.1) ∧
    ∀ f : Field, (∀ m ∈ members, ¬ f.Named m.1) → slot f d' = slot f d := by
  induction members generalizing d with
  | nil =>
    obtain rfl : d = d' := Except.ok.inj h
    simp
  | cons m rest ih =>
    rw [List.foldlM_cons] at h
    obtain ⟨d₁, htake, hrun⟩ := Reader.bind_eq_ok.mp h
    obtain ⟨hkey, hfirst⟩ := slot_of_take htake
    obtain ⟨hkeys, hvalues, honce, hothers⟩ := ih hrun
    -- a later member of the same field would not have found its slot free
    have hlater : ∀ m' ∈ rest, ∀ f : Field, f.Named m.1 → ¬ f.Named m'.1 := by
      intro m' hm' f hf hf'
      obtain ⟨value, hfull, -⟩ := ((hfirst f).1 hf).2
      rw [(hvalues m' hm' f hf').1] at hfull
      cases hfull
    refine ⟨List.forall_mem_cons.mpr ⟨hkey, hkeys⟩, List.forall_mem_cons.mpr ⟨?_, ?_⟩,
      List.pairwise_cons.mpr ⟨hlater, honce⟩, ?_⟩
    · intro f hf
      rw [hothers f fun m' hm' => hlater m' hm' f hf]
      exact (hfirst f).1 hf
    · intro m' hm' f hf
      rw [← (hfirst f).2 fun hm => hlater m' hm' f hm hf]
      exact hvalues m' hm' f hf
    · intro f hf
      rw [List.forall_mem_cons] at hf
      rw [hothers f hf.2, (hfirst f).2 hf.1]

end Draft

/-! ## The law -/

/-- An object in a text is read member by member. -/
theorem ofJsonText_of_object {members : List (List Piece × Document)} {text : String}
    (h : Document.WholeText (.object members true) text.toList) :
    ofJsonText text = (members.foldlM (Draft.take 126) {} >>= fun d => .ok d.settings) := by
  have hread : (shape 126).readMembers Reader.spell members =
      members.foldlM (Draft.take 126) {} := rfl
  unfold ofJsonText Reader.run
  rw [Document.ofText_of_wholeText h]
  simp only [reader, Shape.reader, Reader.depthLimit, Reader.enter, bind, Except.bind]
  rw [hread]
  cases members.foldlM (Draft.take 126) {} <;> rfl

theorem ofJsonText_eq_ok {members : List (List Piece × Document)} {text : String}
    (h : Document.WholeText (.object members true) text.toList) {s : Settings} :
    ofJsonText text = .ok s ↔ ∃ d, members.foldlM (Draft.take 126) {} = .ok d ∧ d.settings = s := by
  rw [ofJsonText_of_object h, Reader.bind_eq_ok]
  simp

theorem written_of_run {members : List (List Piece × Document)} {d : Draft}
    (h : members.foldlM (Draft.take 126) {} = .ok d) : d.settings.WrittenAs members := by
  obtain ⟨hkeys, hvalues, honce, hothers⟩ := Draft.slots_of_run h
  refine ⟨⟨hkeys, fun m hm f hf => ?_, honce⟩, fun f hf => ?_⟩
  · obtain ⟨-, value, hslot, hwrites⟩ := hvalues m hm f hf
    rwa [Draft.get_settings, hslot, Option.getD_some]
  · rw [Draft.get_settings, hothers f hf, Draft.slot_empty, Option.getD_none]

theorem run_of_written {s : Settings} {members : List (List Piece × Document)}
    (h : s.WrittenAs members) (hsound : ∀ m ∈ members, Reader.sound m.2 = true) :
    ∃ d, members.foldlM (Draft.take 126) {} = .ok d ∧ d.settings = s := by
  obtain ⟨d, hrun, hslots⟩ := Draft.run_gives 125 h.toGives hsound (d := {})
    fun _ _ f _ => Draft.slot_empty f
  refine ⟨d, hrun, Field.ext_get fun f => ?_⟩
  rw [Draft.get_settings]
  by_cases hf : ∃ m ∈ members, f.Named m.1
  · rw [(hslots f).1 hf, Option.getD_some]
  · have hnone : ∀ m ∈ members, ¬ f.Named m.1 := fun m hm hm' => hf ⟨m, hm, hm'⟩
    rw [(hslots f).2 hnone, Draft.slot_empty, Option.getD_none, h.others f hnone]

/-- An object in a text is read as the settings that it writes, and as no others. If it gives a
field twice, under one name or under two, then it is refused; and the second one is what is reported
if all members in front of it are in order. -/
theorem any_spelling_is_read_and_no_field_twice {members : List (List Piece × Document)}
    {text : String} (h : Document.WholeText (.object members true) text.toList) :
    (∀ s : Settings, ofJsonText text = .ok s ↔ s.WrittenAs members) ∧
    (∀ (f : Field) (m m' : List Piece × Document), [m, m'].Sublist members → f.Named m.1 →
      f.Named m'.1 → ∃ e, ofJsonText text = .error e) ∧
    ∀ (s : Settings) (f : Field) (m : List Piece × Document)
      (before after : List (List Piece × Document)), members = before ++ m :: after →
      s.Gives before → (∃ m' ∈ before, f.Named m'.1) → f.Named m.1 →
      ofJsonText text = .error (.duplicateField f.name) := by
  have hsound : ∀ m ∈ members, Reader.sound m.2 = true := by
    have hobject := h.sound
    rw [Reader.sound, Bool.and_true] at hobject
    exact Reader.sound_of_mem hobject
  have hread : ∀ s : Settings, ofJsonText text = .ok s ↔ s.WrittenAs members := by
    intro s
    rw [ofJsonText_eq_ok h]
    constructor
    · rintro ⟨d, hrun, rfl⟩
      exact written_of_run hrun
    · exact fun hs => run_of_written hs hsound
  refine ⟨hread, fun f m m' hsub hm hm' => ?_, ?_⟩
  · cases hresult : ofJsonText text with
    | error e => exact ⟨e, rfl⟩
    | ok s =>
      have honce := ((hread s).mp hresult).once.sublist hsub
      exact absurd hm' (List.rel_of_pairwise_cons honce List.mem_cons_self f hm)
  · rintro s f m before after rfl hgives hbefore hm
    obtain ⟨d, hrun, hslots⟩ := Draft.run_gives 125 hgives
      (fun m hm => hsound m (List.mem_append_left _ hm)) (d := {}) fun _ _ f _ => Draft.slot_empty f
    have hfull : Draft.slot f d ≠ none := by
      rw [(hslots f).1 hbefore]
      simp
    rw [ofJsonText_of_object h, List.foldlM_append, hrun]
    simp only [bind, Except.bind, List.foldlM_cons]
    rw [Draft.take_again hm hfull]

/-- A field under another name, one with its default, an interpreter as a key, escapes in a key and
in a value, and an unknown key with a number that is not finite. -/
def odd : List (List Piece × Document) :=
  [(Piece.ofText "setPipefail", .scalar (.bool false)),
    (Piece.ofText "x", .array [.scalar (.number ⟨false, [1], none, some (false, [9, 9, 9])⟩)] true),
    (.char 'd' :: .ofCode 0x65 :: Piece.ofText "scription",
      .scalar (.text [.char '/', .ofCode 0xD83D, .ofCode 0xDE00])),
    (Piece.ofText "shebangFlavor", .object [(Piece.ofText "zsh", .scalar .null)] true),
    (Piece.ofText "set_e", .scalar (.bool true))]

def oddText : String :=
  "\x7b \"setPipefail\":false,\"x\":[1e999],\"d\\u0065scription\":\"\\/\\uD83d\\ude00\"\n," ++
    "\"shebangFlavor\":\x7b\"zsh\":null\x7d,\"set_e\":true\x7d"

theorem wholeText_odd : Document.WholeText (.object odd true) oddText.toList := by
  have hblank := Document.blank_nil
  have hpipefail := Document.MemberText.mk Document.blank_space
    (Piece.quotedText_quoted "setPipefail") hblank hblank .no
  have hone : Numeral.Digits ['1'] := ⟨by simp, by simp⟩
  have hnines : Numeral.Digits ['9', '9', '9'] := ⟨by simp, by simp⟩
  have hmark : 'e' = 'e' ∨ 'e' = 'E' := .inl rfl
  have hlarge : Numeral.UnsignedText false _ _ :=
    .mk hone (by decide) .absent (.unsigned hmark hnines)
  have hx := Document.MemberText.mk hblank (Piece.quotedText_quoted "x") hblank hblank
    (.array (.cons hblank (.number (.positive hlarge)) (.nil hblank)))
  have hd : Piece.Text (.char 'd') ['d'] := .plain (by decide) (by decide) (by decide)
  have he : Piece.Text (.ofCode 0x65) "\\u0065".toList :=
    .code (w := 0) (x := 0) (y := 6) (z := 5) (by decide) (by decide) (by decide) (by decide)
  have hslash : Piece.Text (.char '/') "\\/".toList := .short (by decide)
  have hlead : Piece.Text (.ofCode 0xD83D) "\\uD83d".toList :=
    .code (w := 13) (x := 8) (y := 3) (z := 13) (by decide) (by decide) (by decide) (by decide)
  have htrail : Piece.Text (.ofCode 0xDE00) "\\ude00".toList :=
    .code (w := 13) (x := 14) (y := 0) (z := 0) (by decide) (by decide) (by decide) (by decide)
  have hdescription := Document.MemberText.mk hblank
    (.mk (.cons hd (.cons he (Piece.texts_escaped "scription".toList)))) hblank hblank
    (.string (.mk (.cons hslash (.cons hlead (.cons htrail .nil)))))
  have hzsh := Document.MemberText.mk hblank (Piece.quotedText_quoted "zsh") hblank hblank .null
  have hinterpreter := Document.MemberText.mk hblank (Piece.quotedText_quoted "shebangFlavor")
    hblank hblank (.object (.cons hzsh (.nil hblank)))
  have hexit := Document.MemberText.mk hblank (Piece.quotedText_quoted "set_e") hblank hblank .yes
  have htext := Document.WholeText.mk hblank (.object (.cons hpipefail (.cons hblank hx
    (.cons hblank hdescription (.cons (Document.blank_lineBreak 0) hinterpreter
      (.cons hblank hexit (.nil hblank))))))) hblank
  have hsame : ∀ {cs : List Char}, Document.WholeText (.object odd true) cs →
      oddText.toList = cs → Document.WholeText (.object odd true) oddText.toList := by
    rintro cs h rfl
    exact h
  exact hsame htext (by decide +kernel)

def oddSettings : Settings :=
  { default with interpreter := .zsh, pipefail := false, description := "/😀" }

theorem written_odd : oddSettings.WrittenAs odd := by
  refine ⟨⟨by decide, ?_, by decide⟩, fun f hf => ?_⟩
  · simp only [odd, List.forall_mem_cons]
    refine ⟨?_, ?_, ?_, ?_, ?_, by simp⟩
    all_goals
      intro f hf
      cases f <;> first | exact absurd hf (by decide) | skip
    · rfl
    · exact ⟨_, show _ = some "/😀" by decide, rfl⟩
    · exact ⟨_, show _ = some "zsh" by decide, .inr rfl⟩
    · rfl
  · cases f with
    | interpreter | exitOnError | pipefail | description => exact absurd hf (by decide)
    | exitOnUnset | trace | author | version => rfl

/-- The interpreter under two names, the second time with a value that is none. -/
def twice : List (List Piece × Document) :=
  [(Piece.ofText "shebang", .scalar (.text (Piece.ofText "sh"))),
    (Piece.ofText "shebang_flavor", .scalar .null)]

theorem wholeText_twice : Document.WholeText (.object twice true)
    "\x7b\"shebang\":\"sh\",\"shebang_flavor\":null\x7d".toList := by
  have hblank := Document.blank_nil
  have hfirst := Document.MemberText.mk hblank (Piece.quotedText_quoted "shebang") hblank hblank
    (.string (Piece.quotedText_quoted "sh"))
  have hsecond := Document.MemberText.mk hblank (Piece.quotedText_quoted "shebang_flavor") hblank
    hblank .null
  exact .mk hblank (.object (.cons hfirst (.cons hblank hsecond (.nil hblank)))) hblank

theorem odd_settings_are_read_and_a_second_interpreter_is_not :
    oddSettings.WrittenAs odd ∧ ofJsonText oddText = .ok oddSettings ∧
      ofJsonText "\x7b\"shebang\":\"sh\",\"shebang_flavor\":null\x7d" =
        .error (.duplicateField "shebang_flavor") := by
  have hread := (any_spelling_is_read_and_no_field_twice wholeText_odd).1 oddSettings
  have htwice := (any_spelling_is_read_and_no_field_twice wholeText_twice).2.2
  have hgives : Gives { default with interpreter := .sh } (twice.take 1) := by
    refine ⟨by decide, ?_, by decide⟩
    simp only [twice, List.take_succ_cons, List.take_zero, List.forall_mem_cons]
    refine ⟨fun f hf => ?_, by simp⟩
    cases f <;> first | exact absurd hf (by decide) | skip
    exact ⟨_, show _ = some "sh" by decide, .inl rfl⟩
  refine ⟨written_odd, hread.mpr written_odd, ?_⟩
  exact htwice _ .interpreter _ (twice.take 1) [] rfl hgives ⟨_, List.mem_cons_self, by decide⟩
    (by decide)

end Settings

end Script

end PipeScript
