import TagNavigator.CommandLine.Request
import TagNavigator.Config
import TagNavigator.Tag.Lookup

/-!
# What a run needs

The files and environment variables that a run may look at, as far as a world tells. They are the
configuration file, the file that is edited, the index files, and the defining files of the tag.
Each kind shows once the world holds the kinds before it, so a world with nothing in it becomes
complete for a run when what is needed is added `rounds` times. The users are known beforehand.
-/

namespace TagNavigator.CommandLine

/-- How often needs are to be met before a run. -/
def rounds : Nat := 4

/-- The names of the variables that a text refers to. -/
def variablesIn : Text → List Text
  | [] => []
  | c :: t =>
    if c = '$' then (World.reference? t).toList.map (·.1) ++ variablesIn t
    else variablesIn t

namespace Request

/-- The options of a request. -/
def options (r : Request) (w : World) : Options := r.overlay (Config.loadOptions w)

/-- The index files of a request. -/
def indexFiles (r : Request) (w : World) : List Path :=
  let current := r.fromFile.map fun f => (Path.ofText f).resolve w.cwd
  match (r.options w).indexNames.bind fun names => Index.candidates w names current with
  | .ok paths => paths
  | .error _ => []

/-- The index files and the defining files in them of the tag that is looked up. -/
def definingFiles (r : Request) (w : World) : List (Path × Text) :=
  (r.indexFiles w).flatMap fun index =>
    match Index.read w index (r.fromFile.map Path.ofText) with
    | .error _ => []
    | .ok reading =>
      let matching := reading.records.filter (Lookup.isMatch (r.options w) (r.name.getD []))
      matching.filterMap fun record =>
        match record.fields with
        | .ok (file, _) => some (index, file)
        | .error _ => none

/-- The files that a request may look at. -/
def files (r : Request) (w : World) : List Path :=
  w.configFile :: (r.fromFile.map Path.ofText).toList ++ r.indexFiles w
    ++ (r.definingFiles w).map fun d => Lookup.targetPath w (r.options w) d.1 d.2

/-- The variables that a request may look at. -/
def variableNames (r : Request) (w : World) : List Text :=
  ["HOME".toList, "EDITOR".toList] ++ variablesIn ((r.options w).indexes.toText?.getD [])
    ++ (r.definingFiles w).flatMap fun d => variablesIn d.2

end Request

/-- The world with one more entry, and with the directories on the way to it. -/
def withEntry (w : World) (p : Path) (e : Entry) : World :=
  let passed := (List.range p.names.length).map fun n =>
    Path.absoluteNames w.cwd { p with names := p.names.take n }
  let files := passed.foldl (fun t names => t.put names .directory) w.files
  { w with files := files.put (p.absoluteNames w.cwd) e }

/-- The world with the value of one more variable. -/
def withVariable (w : World) (name value : Text) : World :=
  { w with environment := (name, value) :: w.environment }

/-- The home directories in the lines of a user database, whose fields are separated by colons. -/
def homesIn (database : Text) : List (Text × Text) :=
  (Text.cutAt '\n' database).filterMap fun line =>
    match Text.cutAt ':' line with
    | [user, _, _, _, _, home, _] => some (user, home)
    | _ => none

/-- The place of the configuration file: below the directory for configurations, if one is set, and
else below the home directory. -/
def configPath (configHome home : Option Text) : Path :=
  let base :=
    match configHome with
    | some dir => if (Text.trim dir).isEmpty then none else some (Path.ofText dir)
    | none => none
  let below := (Path.ofText (home.getD [])).child ".config".toList
  ((base.getD below).child "lazytags".toList).child "config.json".toList

end TagNavigator.CommandLine
