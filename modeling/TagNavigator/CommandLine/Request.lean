import TagNavigator.CommandLine.Argument
import TagNavigator.Options

/-!
# Requests

What the arguments of a run ask for: a tag name and the values of the flags. Flags take effect in
order, and of a flag that is repeated the last one counts. The first word is the tag name; more
words have no use.
-/

namespace TagNavigator.CommandLine

/-- What a run is asked for. -/
structure Request where
  name : Option Text := none
  /-- The file that is edited. -/
  fromFile : Option Text := none
  indexes : Option Text := none
  significant : Option Nat := none
  ignoreCase : Bool := false
  noMagic : Bool := false
  besideIndex : Bool := false
  /-- The pattern of the names to list. -/
  expand : Option Text := none
  /-- The number of lines to show before and after a tag. -/
  context : Nat := 3
  noPreview : Bool := false
  style : Option Text := none
  edit : Bool := false
  verbose : Bool := false
  deriving DecidableEq, Repr

/-- What the arguments call for. -/
inductive Invocation where
  | help
  | request (r : Request)
  deriving DecidableEq, Repr

namespace Request

/-- The request with a toggle. Previews have no colors to turn off. -/
def turnOn (r : Request) : Toggle → Request
  | .ignoreCase => { r with ignoreCase := true }
  | .noMagic => { r with noMagic := true }
  | .besideIndex => { r with besideIndex := true }
  | .noPreview => { r with noPreview := true }
  | .noColor => r
  | .edit => { r with edit := true }
  | .verbose => { r with verbose := true }

/-- The number that is the value of a setting. -/
def readCount (s : Setting) (value : Text) : Except UsageError Nat :=
  match Text.readInteger value with
  | .error _ => .error (.notInteger s value)
  | .ok (.ofNat n) => .ok n
  | .ok (.negSucc _) => .error (.negative s)

/-- The request with a setting. -/
def set (r : Request) (s : Setting) (value : Text) : Except UsageError Request :=
  match s with
  | .fromFile => .ok { r with fromFile := some value }
  | .indexes => .ok { r with indexes := some value }
  | .significant => (fun n => { r with significant := some n }) <$> readCount s value
  | .expand => .ok { r with expand := some value }
  | .context => (fun n => { r with context := n }) <$> readCount s value
  | .style => .ok { r with style := some value }

/-- What the arguments call for when they come after the request `r` and the arguments `useless`,
which have no use. A separator right after the tag name is dropped like one before it. -/
def extend (r : Request) (useless : List Text) : List Argument → Except UsageError Invocation
  | [] => if useless.isEmpty then .ok (.request r) else .error (.unrecognized useless)
  | .flag (.setting s) (some value) :: rest =>
    match r.set s value with
    | .error e => .error e
    | .ok r => r.extend useless rest
  | .flag (.setting s) none :: .word value :: rest =>
    match r.set s value with
    | .error e => .error e
    | .ok r => r.extend useless rest
  | .flag (.setting s) none :: _ => .error (.missingValue s)
  | .flag f (some value) :: _ => .error (.unusedValue f value)
  | .flag (.toggle t) none :: rest => (r.turnOn t).extend useless rest
  | .flag .help none :: _ => .ok .help
  | .shortHelp tail :: _ => (fun _ => .help) <$> Argument.checkTail tail
  | .unknown t :: rest => r.extend (useless ++ [t]) rest
  | .word t :: .separator :: rest =>
    if r.name.isNone then extend { r with name := some t } useless rest
    else r.extend (useless ++ [t, Argument.separatorText]) rest
  | .word t :: rest =>
    if r.name.isNone then extend { r with name := some t } useless rest
    else r.extend (useless ++ [t]) rest
  | .separator :: rest =>
    if r.name.isNone then r.extend useless rest
    else r.extend (useless ++ [Argument.separatorText]) rest

/-- The options of the configuration with those of the request in their place. -/
def overlay (r : Request) (o : Options) : Options :=
  { o with
    indexes := (r.indexes.map JsonString.ofText).getD o.indexes
    significant := (r.significant.map fun n => (n : Int)).getD o.significant
    ignoreCase := r.ignoreCase || o.ignoreCase
    magic := !r.noMagic && o.magic
    besideIndex := r.besideIndex || o.besideIndex
    style := match r.style with
      | none | some [] => o.style
      | some style => JsonString.ofText style }

end Request

/-- What the arguments of a run call for. -/
def Invocation.ofTexts (arguments : List Text) : Except UsageError Invocation := do
  let all ← Argument.ofTexts arguments
  Request.extend {} [] all

end TagNavigator.CommandLine
