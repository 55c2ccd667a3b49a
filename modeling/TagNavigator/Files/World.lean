import TagNavigator.Fault
import TagNavigator.Text.Lines
import TagNavigator.Text.Alphanumeric

/-!
# The world of a run

What a run of the program finds around it: the file tree, the working directory, the environment
variables, the place of the configuration file, and the users. Names of files given by the user may
refer to home directories and to environment variables.
-/

namespace TagNavigator

/-- The home directories of the users. -/
structure Users where
  /-- The home directories by the names of their users. -/
  homes : List (Text × Text) := []
  /-- The home directory of the user who runs the program. -/
  own : Option Text := none
  deriving Repr

/-- All home directories. -/
def Users.directories (u : Users) : List Text :=
  u.own.toList ++ u.homes.map Prod.snd

/-- The surroundings of a run. -/
structure World where
  files : FileTree
  /-- The working directory, by its names below the root. -/
  cwd : List Text
  environment : List (Text × Text)
  /-- The place of the configuration file. -/
  configFile : Path
  users : Users := {}
  deriving Repr

namespace World

/-- The value of an environment variable. -/
def valueOf? (w : World) (name : Text) : Option Text :=
  w.environment.lookup name

/-- The greatest number of bytes in a written path. -/
def pathLimit : Nat := 4095

/-- The entry at a path. -/
def entry (w : World) (p : Path) : Except FileError Entry :=
  if pathLimit < (Utf8.encode p.toText).length then .error .nameTooLong
  else w.files.walk (if p.isAbsolute then [] else w.cwd) p.names

/-- Whether a path names something. A path with NUL names nothing. -/
def isThere (w : World) (p : Path) : Except Fault Bool :=
  if p.hasNul then .ok false
  else match w.entry p with
    | .ok _ => .ok true
    | .error .nameTooLong => .error (.file .nameTooLong p)
    | .error _ => .ok false

/-- The content of the file at a path. -/
def readBytes (w : World) (p : Path) : Except FileError Bytes :=
  match w.entry p with
  | .ok (.file content) => .ok content
  | .ok .directory => .error .isDirectory
  | .error e => .error e

/-- The directories that a path leads through, the one that it starts in first. -/
def way (w : World) (p : Path) : List (List Text) :=
  (List.range p.names.length).map fun n =>
    Path.absoluteNames w.cwd { p with names := p.names.take n }

/-- The files with those directories made where nothing is. -/
def withWay (w : World) (p : Path) : FileTree :=
  (w.way p).foldl
    (fun t names =>
      match t.entry? names with
      | some _ => t
      | none => t.set names .directory)
    w.files

/-- Whether a file can be written at a path: the path can be handed to the file system, no file is
in its way, and no directory is at its place. -/
def canWrite (w : World) (p : Path) : Bool :=
  !p.hasNul && (Utf8.encode p.toText).length ≤ pathLimit
    && (p.names.all fun name => (Utf8.encode name).length ≤ FileTree.nameLimit)
    && ((w.way p).all fun names => FileTree.entry? (w.withWay p) names == some .directory)
    && FileTree.entry? (w.withWay p) (p.absoluteNames w.cwd) != some .directory

/-- The world with a file at a path, and with the directories on the way to it. -/
def write (w : World) (p : Path) (content : Bytes) : World :=
  { w with files := (w.withWay p).set (p.absoluteNames w.cwd) (.file content) }

/-- The path, if it can be handed to the file system. -/
def checked (p : Path) : Except Fault Path :=
  if p.hasNul then .error .embeddedNul else .ok p

/-- The path, made absolute and without double dots. -/
def resolve (w : World) (p : Path) : Except Fault Path :=
  (·.resolve w.cwd) <$> checked p

/-- The text of a file's content: by UTF-8, or, if it is ill-formed, by one character for each
byte. Line ends are made line feeds. -/
def textOf (content : Bytes) : Text :=
  Text.unifyLineEnds ((Utf8.decode? content).getD (content.map fun b => Char.ofNat b.toNat))

/-- The text of the file at a path. -/
def readText (w : World) (p : Path) : Except FileError Text :=
  textOf <$> w.readBytes p

/-- The name of the user whose home directory a file name starts with: what stands between a tilde
at the start and the first slash. -/
def userOf : Text → Text
  | '~' :: t => t.takeWhile (· != '/')
  | _ => []

/-- The home directory of a user. Without a name it is that of the environment, or else that of the
user who runs the program. -/
def homeOf? (w : World) (user : Text) : Option Text :=
  if user.isEmpty then (w.valueOf? "HOME".toList).or w.users.own
  else w.users.homes.lookup user

/-- A tilde at the start, with the name of a user after it, is replaced by the home directory. It
stays if none is known. -/
def expandHome (w : World) : Text → Text
  | '~' :: t =>
    match w.homeOf? (userOf ('~' :: t)) with
    | none => '~' :: t
    | some home =>
      match Text.dropTrailing (· == '/') home ++ t.dropWhile (· != '/') with
      | [] => ['/']
      | path => path
  | t => t

/-- A letter, digit or underscore of ASCII. -/
def isNameChar (c : Char) : Bool :=
  c.isAlphanum || c == '_'

/-- The variable that is referred to after a dollar, and the number of characters that name it,
braces included. -/
def reference? (t : Text) : Option (Text × Nat) :=
  match t with
  | '{' :: rest =>
    let name := rest.takeWhile (· != '}')
    if name.length < rest.length then some (name, name.length + 2) else none
  | _ =>
    let name := t.takeWhile isNameChar
    if name.isEmpty then none else some (name, name.length)

/-- The text with references to variables replaced by their values, of which the first `skip`
characters have been dealt with. A reference to an unknown variable stays. -/
def expandVariablesFrom (w : World) : (skip : Nat) → Text → Text
  | _, [] => []
  | skip + 1, _ :: t => expandVariablesFrom w skip t
  | 0, c :: t =>
    if c = '$' then
      match reference? t with
      | some (name, n) =>
        match w.valueOf? name with
        | some value => value ++ expandVariablesFrom w n t
        | none => (c :: t.take n) ++ expandVariablesFrom w n t
      | none => c :: expandVariablesFrom w 0 t
    else c :: expandVariablesFrom w 0 t

/-- The path that a user's file name means. -/
def expandPath (w : World) (name : Text) : Path :=
  Path.ofText (w.expandVariablesFrom 0 (w.expandHome name))

end World

end TagNavigator
