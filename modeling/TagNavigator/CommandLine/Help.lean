import TagNavigator.CommandLine.Flag

/-!
# Help on the command line

One line for each flag, with what it does.
-/

namespace TagNavigator.CommandLine

/-- What a toggle does. -/
def Toggle.purpose : Toggle → Text
  | ignoreCase => "compare names and search without regard to case".toList
  | noMagic => "take . * [ in patterns as they stand".toList
  | besideIndex => "look for files beside the index that names them".toList
  | noPreview => "print the place only".toList
  | noColor => "print without colors".toList
  | edit => "name the command that edits the file at the place".toList
  | verbose => "print what is logged".toList

/-- What a setting does. -/
def Setting.purpose : Setting → Text
  | fromFile => "the file that is edited".toList
  | indexes => "the index files, separated by spaces".toList
  | significant => "how many leading characters of names count, 0 for all".toList
  | expand => "print the names that match this pattern".toList
  | context => "how many lines are shown before and after the tag".toList
  | style => "the style of the preview".toList

/-- What a flag does. -/
def Flag.purpose : Flag → Text
  | help => "print this help".toList
  | toggle t => t.purpose
  | setting s => s.purpose

/-- The line of a flag. -/
def Flag.helpLine (f : Flag) : Text :=
  [' ', ' '] ++ Text.padRight 18 f.label ++ f.purpose ++ ['\n']

/-- The help. -/
def helpText : Text :=
  "usage: lazytags [flags] [name]\n\nPrints where a tag is defined.\n\n".toList
    ++ Flag.all.flatMap Flag.helpLine

end TagNavigator.CommandLine
