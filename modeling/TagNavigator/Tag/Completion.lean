import TagNavigator.Log
import TagNavigator.Pattern.Source
import TagNavigator.Options
import TagNavigator.Tag.Index

/-!
# Completing tag names

A completion lists the names of all records that match a pattern, in the order of the index files
and their lines, repetitions included. The room for names starts small and doubles when it is full,
up to a limit; a further match at the limit ends the completion, which is then cut short.
-/

namespace TagNavigator

/-- The names that were found, whether there are more, and the log lines on the way. -/
structure Completion where
  names : List Text
  truncated : Bool
  log : List LogLine
  deriving DecidableEq, Repr

namespace Completion

/-- The names held so far, latest first, their number, and the room for names. -/
structure Held where
  latest : List Text
  count : Nat
  room : Int
  deriving DecidableEq, Repr

/-- The room for names at the start. -/
def initialRoom : Int := 100

/-- Nothing is held. -/
def Held.start (limit : Int) : Held := ⟨[], 0, min initialRoom (max 1 limit)⟩

/-- The names held with one more, unless the limit is reached. -/
def Held.add (limit : Int) (h : Held) (name : Text) : Option Held :=
  if (h.count : Int) = h.room then
    if limit ≤ h.room then none
    else some ⟨name :: h.latest, h.count + 1, min (h.room * 2) limit⟩
  else some ⟨name :: h.latest, h.count + 1, h.room⟩

/-- The names held after adding the given ones, and whether all of them found room. -/
def Held.addAll (limit : Int) (h : Held) : List Text → Held × Bool
  | [] => (h, true)
  | name :: rest =>
    match h.add limit name with
    | none => (h, false)
    | some h' => h'.addAll limit rest

/-- The names of the records that match. -/
def matchingNames (m : Matcher) (records : List TagRecord) : List Text :=
  (records.filterMap (·.name)).filter fun n => (m.first n).isSome

/-- The completion with log lines before. -/
def logging (ls : List LogLine) (c : Completion) : Completion := { c with log := ls ++ c.log }

/-- The log line of a completion that is cut short. -/
def stopped (count : Nat) : LogLine :=
  ⟨.completion, false,
    "tag expansion stopped at ".toList ++ Text.ofNat count ++ " matches".toList⟩

/-- The completion over the given index files, when some names are held already. -/
def among (w : World) (m : Matcher) (currentFile : Option Path) (limit : Int) (h : Held) :
    List Path → Completion
  | [] => ⟨h.latest.reverse, false, []⟩
  | index :: rest =>
    match Index.read w index currentFile with
    | .error e => logging [.skipping .completion e] (among w m currentFile limit h rest)
    | .ok reading =>
      let (h', complete) := h.addAll limit (matchingNames m reading.records)
      if complete then
        logging (.scanning index :: (reading.stop.map (LogLine.malformed .completion)).toList)
          (among w m currentFile limit h' rest)
      else ⟨h'.latest.reverse, true, [.scanning index, stopped h'.count]⟩

/-- The names that match, at most `limit` of them and at least one if there is one. -/
def expand (w : World) (m : Matcher) (indexes : Text) (currentFile : Option Path) (limit : Int) :
    Except Fault Completion :=
  among w m currentFile limit (Held.start limit) <$> Index.candidates w indexes currentFile

/-- Why a pattern has no completion. -/
inductive Failure where
  | invalid (e : Pattern.Invalid)
  | fault (e : Fault)
  deriving DecidableEq, Repr

/-- The completion of a pattern with the given options. -/
def ofPattern (w : World) (o : Options) (pattern : Text) (currentFile : Option Path) :
    Except Failure Completion :=
  match Pattern.compile pattern o.magic o.ignoreCase with
  | .error e => .error (.invalid e)
  | .ok m =>
    match o.indexNames.bind fun names => expand w m names currentFile o.expandLimit with
    | .error e => .error (.fault e)
    | .ok c => .ok c

end Completion

end TagNavigator
