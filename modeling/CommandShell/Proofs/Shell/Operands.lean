import CommandShell.Builtin.Table
import CommandShell.Proofs.Line.EchoLine

/-!
What the words of a user are to the built-in commands of every shell: operands, each unquoted once
and in their order, however much they look like options. Only `echo` has switches, which count where
the words literally begin with them.

What a command is run on is a value read from its operands. The value holds all of them, each in its
place: a text is the operand itself, and a number the one that the operand is a numeral of. Operands
that no value holds are refused.
-/
namespace CommandShell

/-- What a value read from an operand holds of it. -/
inductive Operand.Holds : {α : Type} → Operand α → (operand : Text) → α → Prop
  | word (name doc : String) (operand : Text) : Holds (.word name doc) operand operand
  | pid (doc : String) {operand : Text} {n : Nat}
      (numeral : Text.readNat 4294967295 operand = .ok n) : Holds (.pid doc) operand n
  | code (doc : String) {operand : Text} {n : Int}
      (numeral : Text.readInt 2147483647 operand = .ok n) : Holds (.code doc) operand n

/-- What a value read from the operands of a command holds of them: all, in their order. -/
inductive Signature.Holds : {α : Type} → Signature α → (operands : List Text) → α → Prop
  | none : Holds .none [] ()
  | many (name : String) (operands : List Text) : Holds (.many name) operands operands
  | one {α : Type} {o : Operand α} {operand : Text} {value : α} (held : o.Holds operand value) :
    Holds (.one o) [operand] value
  | absent {α : Type} (o : Operand α) : Holds (.optional o) [] Option.none
  | present {α : Type} {o : Operand α} {operand : Text} {value : α}
      (held : o.Holds operand value) : Holds (.optional o) [operand] (some value)
  | two {α β : Type} {a : Operand α} {b : Operand β} {first second : Text} {x : α} {y : β}
      (left : a.Holds first x) (right : b.Holds second y) :
    Holds (.two a b) [first, second] (x, y)

/-- An operand from which exactly the values are read that hold it. -/
class Operand.Exact {α : Type} (o : Operand α) : Prop where
  holds : ∀ {operand value}, o.read operand = .ok value → o.Holds operand value

/-- A signature by which a value is read from operands only if it holds them. -/
class Signature.Exact {α : Type} (s : Signature α) : Prop where
  holds : ∀ {operands value}, s.read operands = .ok value → s.Holds operands value

namespace Operand

theorem Holds.read {α : Type} {o : Operand α} {operand : Text} {value : α}
    (h : o.Holds operand value) : o.read operand = .ok value := by
  cases h with
  | word => rfl
  | pid _ numeral | code _ numeral => exact numeral

instance (name doc : String) : (word name doc).Exact where
  holds := by
    rintro operand _ ⟨⟩
    exact .word name doc operand

instance (doc : String) : (pid doc).Exact := ⟨.pid doc⟩

instance (doc : String) : (code doc).Exact := ⟨.code doc⟩

variable {α : Type} {o : Operand α} {operand : Text}

theorem Holds.readWord {value : α} (h : o.Holds operand value) :
    o.readWord operand = .ok value := by
  rw [Operand.readWord, h.read]

theorem holds_of_readWord [o.Exact] {value : α} (h : o.readWord operand = .ok value) :
    o.Holds operand value := by
  rw [Operand.readWord] at h
  split at h
  · next read =>
    cases h
    exact Exact.holds read
  · cases h

end Operand

namespace Signature
variable {α β : Type} {a : Operand α} {b : Operand β}

/-- A value is read from the operands that it holds. -/
theorem Holds.read {s : Signature α} {operands : List Text} {value : α}
    (h : s.Holds operands value) : s.read operands = .ok value := by
  cases h with
  | none | many | absent => rfl
  | one held | present held =>
      dsimp only [Signature.one, Signature.optional]
      rw [held.readWord]
      rfl
  | two left right =>
      dsimp only [Signature.two]
      rw [left.readWord]
      dsimp only [Except.bind]
      rw [right.readWord]
      rfl

/-- Where no operand may be left, there is none. -/
theorem readEnd_eq_ok {value result : α} {rest : List Text}
    (h : readEnd value rest = .ok result) : rest = [] ∧ result = value := by
  cases rest with
  | nil =>
      cases h
      exact ⟨rfl, rfl⟩
  | cons => cases h

theorem bind_eq_ok {read : Except OperandError α} {next : α → Except OperandError β} {result : β}
    (h : read.bind next = .ok result) : ∃ value, read = .ok value ∧ next value = .ok result := by
  cases read with
  | error => cases h
  | ok value => exact ⟨value, rfl, h⟩

instance : Signature.none.Exact where
  holds := by
    intro operands value h
    obtain ⟨rfl, rfl⟩ := readEnd_eq_ok h
    exact .none

instance (name : String) : (many name).Exact where
  holds := by
    rintro operands _ ⟨⟩
    exact .many name operands

instance [a.Exact] : (one a).Exact where
  holds := by
    intro operands value h
    cases operands with
    | nil => cases h
    | cons operand rest =>
        obtain ⟨read, first, last⟩ := bind_eq_ok h
        obtain ⟨rfl, rfl⟩ := readEnd_eq_ok last
        exact .one (Operand.holds_of_readWord first)

instance [a.Exact] : (optional a).Exact where
  holds := by
    intro operands value h
    cases operands with
    | nil =>
        cases h
        exact .absent a
    | cons operand rest =>
        obtain ⟨read, first, last⟩ := bind_eq_ok h
        obtain ⟨rfl, rfl⟩ := readEnd_eq_ok last
        exact .present (Operand.holds_of_readWord first)

instance [a.Exact] [b.Exact] : (two a b).Exact where
  holds := by
    intro operands value h
    match operands, h with
    | [], h => cases h
    | [operand], h =>
        obtain ⟨_, -, missing⟩ := bind_eq_ok h
        cases missing
    | first :: second :: rest, h =>
        obtain ⟨x, left, h⟩ := bind_eq_ok h
        obtain ⟨y, right, last⟩ := bind_eq_ok h
        obtain ⟨rfl, rfl⟩ := readEnd_eq_ok last
        exact .two (Operand.holds_of_readWord left) (Operand.holds_of_readWord right)

end Signature

namespace Builtin

/-- A command is run on the value that holds its operands, and refuses those that none holds. -/
theorem Declared.perform_cases {α : Type} (d : Declared α) [d.signature.Exact]
    (switches operands : List Text) (s : State) :
    (∀ value, d.signature.Holds operands value →
      d.perform switches operands s = d.body switches value s) ∧
    ((∀ value, ¬d.signature.Holds operands value) →
      ∃ error, d.perform switches operands s = (s, misread error)) := by
  rw [Declared.perform]
  refine ⟨fun value held => by rw [held.read], fun none => ?_⟩
  cases read : d.signature.read operands with
  | ok value => exact absurd (Signature.Exact.holds read) (none value)
  | error error => exact ⟨error, rfl⟩

/-- Commands that are declared without switches, under whatever name. -/
def Switchless (command : Text → Builtin) : Prop :=
  ∃ (α : Type) (d : Declared α), command = d.builtin ∧ d.leading = [] ∧ d.showsUsage = true ∧
    d.signature.Exact

instance : echoing.signature.Exact := inferInstanceAs (Signature.many "args").Exact

theorem switchless_ofSignature {α : Type} (description doc : String) (signature : Signature α)
    [exact : signature.Exact] (body : α → State → State × Answer) :
    Switchless fun name => ofSignature name description doc signature body :=
  ⟨α, _, rfl, rfl, rfl, exact⟩

/-- The names of the pictures, which no declaration stands behind. -/
def pictureNames : List Text := ["logo", "banner", "splash"].map String.toList

/-- What a command of every shell can be. -/
inductive Origin : Builtin → Prop
  | switchless {command : Text → Builtin} {name : Text} (h : Switchless command)
    (other : name ≠ Line.echoName) : Origin (command name)
  | echo : Origin (echo Line.echoName)
  | picture (description : String) {name : Text} (shown : name ∈ pictureNames) :
    Origin (art description name)

theorem origin_of_standard : ∀ b ∈ BuiltinTable.standard.commands, Origin b := by
  have plain (command : Text → Builtin) (names : List String)
      (h : Switchless command := by exact switchless_ofSignature _ _ _ _)
      (others : ∀ name ∈ names, name.toList ≠ Line.echoName := by decide) :
      ∀ b ∈ BuiltinTable.named command names, Origin b := by
    intro b member
    obtain ⟨name, listed, rfl⟩ := List.mem_map.1 member
    exact .switchless h (others name listed)
  have echoes : ∀ b ∈ BuiltinTable.named echo ["echo"], Origin b := by
    intro b member
    cases List.mem_singleton.1 member
    exact .echo
  have shows (description name : String) (shown : name.toList ∈ pictureNames := by decide) :
      ∀ b ∈ BuiltinTable.named (art description) [name], Origin b := by
    intro b member
    cases List.mem_singleton.1 member
    exact .picture description shown
  unfold BuiltinTable.standard
  simp only [List.forall_mem_append, and_assoc]
  exact ⟨plain cd _, plain dir _, plain pwd _, echoes, plain set _, plain env _, plain clear _,
    plain exit _, plain help _, plain history _, plain pushd _, plain popd _, plain mkdir _,
    plain rmdir _, plain del _, plain copy _, plain move _, plain type _, plain prompt _,
    plain jobs _, plain fg _, plain bg _, plain kill _, shows _ _, shows _ _, shows _ _⟩

/-- A declaration that a command of every shell is made by: values are read by it from operands only
if they hold them, only that of `echo` has a switch, and all others have a usage. -/
structure Declared.Backs {α : Type} (d : Declared α) (b : Builtin) : Prop where
  builtin : b = d.builtin b.name
  holds : d.signature.Exact
  leading : d.leading = if b.name = Line.echoName then [noNewline] else []
  showsUsage : d.showsUsage = true ↔ b.name ≠ Line.echoName

theorem exists_backs_of_standard {b : Builtin} (member : b ∈ BuiltinTable.standard.commands)
    (declared : b.name ∉ pictureNames) : ∃ (α : Type) (d : Declared α), d.Backs b := by
  cases origin_of_standard b member with
  | @switchless command name switchless other =>
      obtain ⟨α, d, rfl, none, shows, exact⟩ := switchless
      have other : (d.builtin name).name ≠ Line.echoName := other
      exact ⟨α, d, rfl, exact, none.trans (if_neg other).symm, iff_of_true shows other⟩
  | echo =>
      exact ⟨_, echoing, rfl, inferInstance, rfl, iff_of_false nofun (not_not_intro rfl)⟩
  | picture description shown => exact absurd shown declared

theorem eq_echo_of_standard {b : Builtin} (member : b ∈ BuiltinTable.standard.commands)
    (named : b.name = Line.echoName) : b = echo Line.echoName := by
  cases origin_of_standard b member with
  | switchless made other =>
      obtain ⟨α, d, rfl, -⟩ := made
      exact absurd named other
  | echo => rfl
  | @picture description name shown =>
      obtain rfl : name = Line.echoName := named
      exact absurd shown (by decide)

/-- However vectors are read, as long as all words after the first separator are operands: a command
of every shell that is no picture takes for switches those that its words literally begin with, as
far as they do, and all other words for operands, each unquoted once and in their order. By whatever
declaration it is made, it is run on the value that holds just these operands, and refuses them if
there is none. Only `echo` has a switch; the others are not run on a lone request for the usage.
`echo` writes its operands with a space between them, and a newline after them unless its words
begin with the switch. -/
theorem runBy_of_standard {reader : VectorReader} (separates : Separates reader) {b : Builtin}
    (member : b ∈ BuiltinTable.standard.commands) (declared : b.name ∉ pictureNames) :
    (∃ (α : Type) (d : Declared α), d.Backs b) ∧
    ∀ {α : Type} {d : Declared α}, d.Backs b →
      ∀ words s, (b.name = Line.echoName ∨ words ≠ [helpWord]) →
        let switches := words.takeWhile d.leading.contains
        let operands := (words.dropWhile d.leading.contains).map Line.unquote
        (∀ value, d.signature.Holds operands value →
          d.runBy reader b.name words s = d.body switches value s) ∧
        ((∀ value, ¬d.signature.Holds operands value) →
          ∃ error, d.runBy reader b.name words s = (s, misread error)) ∧
        (b.name = Line.echoName →
          d.runBy reader b.name words s =
            say s (Text.unwords operands ++ if switches = [] then ['\n'] else [])) := by
  refine ⟨exists_backs_of_standard member declared, fun {α d} backs words s asked => ?_⟩
  intro switches operands
  have := backs.holds
  have other (shows : d.showsUsage) : words ≠ [helpWord] :=
    asked.resolve_left (backs.showsUsage.1 shows)
  have run : d.runBy reader b.name words s = d.perform switches operands s :=
    d.runBy_eq separates b.name other s
  obtain ⟨runs, refuses⟩ := d.perform_cases switches operands s
  rw [run]
  refine ⟨runs, refuses, fun named => ?_⟩
  have leads : d.leading = echoing.leading := backs.leading.trans (if_pos named)
  -- Every reader of vectors comes to what the command does on its words.
  calc d.perform switches operands s
    _ = b.run words s := by
      rw [backs.builtin]
      exact (d.runBy_eq separates_readVector b.name other s).symm
    _ = echoing.perform switches operands s := by
      rw [eq_echo_of_standard member named]
      unfold switches operands
      rw [leads]
      exact echoing.runBy_eq separates_readVector _ nofun s
    _ = say s (Text.unwords operands ++ if switches = [] then ['\n'] else []) := by
      cases switches with
      | nil => rfl
      | cons switch more =>
          rw [if_neg (List.cons_ne_nil switch more), List.append_nil]
          rfl

theorem runBy_of_standard_dashed :
    let echoed := ["-n", "-n", "--", "'-n'", "-x", "help", "--help"].map String.toList
    let copied := ["--help", "'-n'"].map String.toList
    (∀ s, (echo Line.echoName).run echoed s = say s "-- -n -x help --help".toList) ∧
    ∀ s, (copy "copy".toList).run copied s =
      let origin := s.environment.resolve "--help".toList
      let target := copyTarget s.files origin (s.environment.resolve "-n".toList)
      transferred s "copy".toList "Copied".toList "--help".toList "-n".toList
        (s.files.copy origin target) := by
  intro echoed copied
  have echoes : echo Line.echoName ∈ BuiltinTable.standard.commands :=
    List.mem_of_getElem? (i := 5) rfl
  have copies : copy "copy".toList ∈ BuiltinTable.standard.commands :=
    List.mem_of_getElem? (i := 19) rfl
  constructor
  · intro s
    obtain ⟨-, runs⟩ := runBy_of_standard separates_readVector echoes (by decide)
    obtain ⟨-, -, said⟩ := runs (d := echoing)
      ⟨rfl, inferInstance, rfl, iff_of_false nofun (not_not_intro rfl)⟩ echoed s (.inl rfl)
    exact said rfl
  · intro s
    obtain ⟨-, runs⟩ := runBy_of_standard separates_readVector copies (by decide)
    obtain ⟨run, -⟩ := runs ⟨rfl, inferInstanceAs (Signature.two _ _).Exact, rfl,
      iff_of_true rfl (by decide)⟩ copied s (.inr (by decide))
    exact run ("--help".toList, "-n".toList) (.two (.word ..) (.word ..))

end Builtin

end CommandShell
