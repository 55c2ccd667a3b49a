import TagNavigator.Text.Quoted

/-!
# Flags of the command line

The flags and their names. A toggle stands alone; a setting takes a value.
-/

namespace TagNavigator.CommandLine

/-- A flag without a value. -/
inductive Toggle where
  | ignoreCase
  | noMagic
  | besideIndex
  | noPreview
  | noColor
  | edit
  | verbose
  deriving DecidableEq, Repr

/-- A flag with a value. -/
inductive Setting where
  | fromFile
  | indexes
  | significant
  | expand
  | context
  | style
  deriving DecidableEq, Repr

/-- A flag. -/
inductive Flag where
  | help
  | toggle (t : Toggle)
  | setting (s : Setting)
  deriving DecidableEq, Repr

/-- The name of a toggle. -/
def Toggle.name : Toggle → Text
  | ignoreCase => "--ignorecase".toList
  | noMagic => "--nomagic".toList
  | besideIndex => "--tagrelative".toList
  | noPreview => "--no-preview".toList
  | noColor => "--no-color".toList
  | edit => "--edit".toList
  | verbose => "--verbose".toList

/-- The name of a setting. -/
def Setting.name : Setting → Text
  | fromFile => "--from".toList
  | indexes => "--tags".toList
  | significant => "--taglength".toList
  | expand => "--expand".toList
  | context => "--context".toList
  | style => "--style".toList

namespace Flag

/-- The name of a flag. -/
def name : Flag → Text
  | help => "--help".toList
  | toggle t => t.name
  | setting s => s.name

/-- The flag as errors name it: with its short form, if it has one. -/
def label : Flag → Text
  | help => "-h/--help".toList
  | f => f.name

/-- All flags, in the order in which they are listed. -/
def all : List Flag := [
  help, setting .fromFile, setting .indexes, setting .significant, toggle .ignoreCase,
  toggle .noMagic, toggle .besideIndex, setting .expand, setting .context, toggle .noPreview,
  setting .style, toggle .noColor, toggle .edit, toggle .verbose]

/-- The flags that a name may mean: the one of that name, or else those whose names start with
it. -/
def candidates (written : Text) : List Flag :=
  match all.find? fun f => f.name == written with
  | some f => [f]
  | none => all.filter fun f => written.isPrefixOf f.name

end Flag

/-- Why the arguments are refused. -/
inductive UsageError where
  /-- An abbreviated flag may mean several ones. -/
  | ambiguous (argument : Text) (candidates : List Flag)
  /-- A setting has no value. -/
  | missingValue (s : Setting)
  /-- A flag that takes no value has one. -/
  | unusedValue (f : Flag) (value : Text)
  | notInteger (s : Setting) (value : Text)
  | negative (s : Setting)
  /-- Arguments with no use. -/
  | unrecognized (arguments : List Text)
  /-- There is no tag to look up. -/
  | nameRequired
  deriving DecidableEq, Repr

/-- What is said of a flag. -/
def Flag.complaint (f : Flag) (t : Text) : Text :=
  "argument ".toList ++ f.label ++ ": ".toList ++ t

/-- The notice for a usage error. -/
def UsageError.message : UsageError → Text
  | ambiguous argument candidates =>
    "ambiguous option: ".toList ++ argument ++ " could match ".toList
      ++ Text.join ", ".toList (candidates.map Flag.name)
  | missingValue s => (Flag.setting s).complaint "expected one argument".toList
  | unusedValue f value => f.complaint ("ignored explicit argument ".toList ++ Text.quoted value)
  | notInteger s value =>
    (Flag.setting s).complaint ("invalid integer value: ".toList ++ Text.quoted value)
  | negative s => (Flag.setting s).complaint "value must be >= 0".toList
  | unrecognized arguments =>
    "unrecognized arguments: ".toList ++ Text.join [' '] arguments
  | nameRequired => "a tag name is required unless --expand is given".toList

end TagNavigator.CommandLine
