import PatternMachine.Error
import PatternMachine.Program
import PatternMachine.Text.Step

/-!
# Assembling programs

A builder collects instructions and operand tables.  Branches name labels, which may be bound before
or after their use; `Builder.build` turns them into targets.  Building takes the code and the tables
out of the builder, so that the same builder may go on with a second program.
-/

namespace PatternMachine

/-- A position of the code that may be used before it is known. -/
structure Label where
  index : Nat
  deriving DecidableEq, Repr

/-- A use of a label by the instruction at an address. -/
structure LabelUse where
  address : Nat
  label : Label
  deriving DecidableEq, Repr

/-- A program in the making. -/
structure Builder where
  code : Array Instruction := #[]
  /-- The address that each label is bound to, if it is bound. -/
  labels : Array (Option Nat) := #[]
  /-- The uses of labels, in the order of the code. -/
  uses : Array LabelUse := #[]
  templates : Array ByteArray := #[]
  classes : Array CharClass := #[]
  repeatRanges : Array RepeatRange := #[]
  groupCount : Nat := 0
  emptyCheckCount : Nat := 0
  loggedStarts : GroupMask := .empty
  loggedEnds : GroupMask := .empty
  options : Options := .none
  encoding : Encoding
  deriving DecidableEq

namespace Builder

/-- A builder for programs that run on texts of an encoding. -/
def new (encoding : Encoding) : Builder :=
  { encoding }

/-! ### Declarations -/

/-- Sets the options of the program. -/
def setOptions (builder : Builder) (options : Options) : Builder :=
  { builder with options }

/-- Declares the number of capture groups. -/
def setGroups (builder : Builder) (groupCount : Nat) : Builder :=
  { builder with groupCount }

/-- Registers a repeat range; the number is its id. -/
def addRepeat (builder : Builder) (range : RepeatRange) : Nat × Builder :=
  (builder.repeatRanges.size, { builder with repeatRanges := builder.repeatRanges.push range })

/-- Allocates an empty-iteration check; the number is its id. -/
def addEmptyCheck (builder : Builder) : Nat × Builder :=
  (builder.emptyCheckCount, { builder with emptyCheckCount := builder.emptyCheckCount + 1 })

/-- Registers a literal; the number is its index. -/
def addTemplate (builder : Builder) (literal : ByteArray) : Nat × Builder :=
  (builder.templates.size, { builder with templates := builder.templates.push literal })

/-- Registers a class; the number is its index. -/
def addClass (builder : Builder) (charClass : CharClass) : Nat × Builder :=
  (builder.classes.size, { builder with classes := builder.classes.push charClass })

/-- Makes a label that is not bound yet. -/
def newLabel (builder : Builder) : Label × Builder :=
  (⟨builder.labels.size⟩, { builder with labels := builder.labels.push none })

/-- Binds a label to the next instruction; an earlier binding is forgotten. -/
def bind (builder : Builder) (label : Label) : Builder :=
  { builder with labels := builder.labels.setIfInBounds label.index (some builder.code.size) }

/-! ### Instructions -/

/-- Appends an instruction.  Logged openings and closings of groups are recorded in the program. -/
def emit (builder : Builder) (instruction : Instruction) : Builder where
  code := builder.code.push instruction
  labels := builder.labels
  uses := builder.uses
  templates := builder.templates
  classes := builder.classes
  repeatRanges := builder.repeatRanges
  groupCount := builder.groupCount
  emptyCheckCount := builder.emptyCheckCount
  loggedStarts :=
    match instruction with
    | .openGroup number true => builder.loggedStarts.insert number
    | _ => builder.loggedStarts
  loggedEnds :=
    match instruction with
    | .closeGroup number true => builder.loggedEnds.insert number
    | _ => builder.loggedEnds
  options := builder.options
  encoding := builder.encoding

/-- Appends an instruction whose target is a label. -/
def emitTo (builder : Builder) (instruction : Instruction) (label : Label) : Builder :=
  { builder with uses := builder.uses.push ⟨builder.code.size, label⟩ }.emit instruction

/-- Appends a literal. -/
def literal (builder : Builder) (bytes : ByteArray) : Builder :=
  builder.emit (.literal bytes)

/-- Appends a literal that ignores case. -/
def foldedLiteral (builder : Builder) (bytes : ByteArray) : Builder :=
  let text : Text := ⟨bytes, builder.encoding⟩
  match (text.charactersFrom 0).map fun (_, code) => builder.encoding.fold code with
  | [code] => builder.emit (.foldedChar code)
  | codes => builder.emit (.foldedChars codes)

/-- Appends a jump. -/
def jump (builder : Builder) (label : Label) : Builder :=
  builder.emitTo (.jump 0) label

/-- Appends a choice. -/
def push (builder : Builder) (label : Label) : Builder :=
  builder.emitTo (.push 0) label

/-- Appends a choice that becomes a jump unless a byte follows. -/
def pushOrJump (builder : Builder) (label : Label) (next : UInt8) : Builder :=
  builder.emitTo (.pushOrJump 0 next) label

/-- Appends a choice that is left only if a byte follows. -/
def pushIfNext (builder : Builder) (label : Label) (next : UInt8) : Builder :=
  builder.emitTo (.pushIfNext 0 next) label

/-- Appends the entry of a repeat; the label belongs right behind the repeat's end. -/
def repeatStart (builder : Builder) (id : Nat) (exit : Label) (greedy : Bool) : Builder :=
  builder.emitTo (.repeatStart id 0 greedy) exit

/-- Appends the start of a negative lookahead. -/
def lookNotStart (builder : Builder) (label : Label) : Builder :=
  builder.emitTo (.lookNotStart 0) label

/-- Appends the start of a negative lookbehind. -/
def lookBehindNotStart (builder : Builder) (label : Label) (length : Nat) : Builder :=
  builder.emitTo (.lookBehindNotStart 0 length) label

/-- Appends a call. -/
def call (builder : Builder) (label : Label) : Builder :=
  builder.emitTo (.call 0) label

/-! ### Building -/

/-- The address that a label is bound to. -/
def address? (builder : Builder) (label : Label) : Option Nat :=
  (builder.labels[label.index]?).join

/-- Writes the target of one use of a label into the code.  The use has to lie in the code, as all
uses of a builder do until a build has failed; for one that lies beyond it there is no program to
build, and it is left out here. -/
def resolve (builder : Builder) (code : Array Instruction) (use : LabelUse) :
    Except MatchError (Array Instruction) :=
  match builder.address? use.label with
  | some target => .ok (code.modify use.address (·.withTarget use.address target))
  | none => .error (.corrupt use.address .addressOutOfRange)

/-- Makes a program of what was collected, and what is left of the builder.  Labels keep their
bindings, and groups, empty-iteration checks and options stay declared.  The first use of a label
that is not bound is an error, and the code is lost with it. -/
def build (builder : Builder) : Except MatchError Program × Builder :=
  match builder.uses.foldlM builder.resolve builder.code with
  | .ok code =>
    (.ok
      { code
        templates := builder.templates
        classes := builder.classes
        repeatRanges := builder.repeatRanges
        groupCount := builder.groupCount
        emptyCheckCount := builder.emptyCheckCount
        loggedStarts := builder.loggedStarts
        loggedEnds := builder.loggedEnds
        options := builder.options
        encoding := builder.encoding },
      { builder with
        code := #[], uses := #[], templates := #[], classes := #[], repeatRanges := #[] })
  | .error failure => (.error failure, { builder with code := #[] })

end Builder

end PatternMachine
