import Wiring.Emission

/-!
# Generation passes

A pass discovers properties, compiles them and hands the files to a sink.  All files are there
before the first one reaches the sink, so a problem with any property leaves the sink alone.

## Main definitions

* `PropertySource` — where properties come from.
* `Summary` — the paths of written and of unchanged files.
* `run` — a pass.
-/

namespace Wiring

/-- Where the properties of a pass come from. -/
inductive PropertySource where
  /-- Manifests, in which the marker is looked for. -/
  | manifests (all : List Manifest)
  /-- Properties that have been discovered before. -/
  | properties (all : List Property)
  /-- Any other source, by what it answers when it is asked for a marker. -/
  | other (answer : String → Except Problem (List Property))
  deriving Inhabited

/-- The properties of a source. -/
def PropertySource.discover (marker : String) : PropertySource → Except Problem (List Property)
  | manifests all =>
      match Manifest.discoverAll marker all with
      | .error fault => .error (.ofDiscovery fault)
      | .ok found => .ok found
  | properties all => .ok all
  | other answer => answer marker

/-- What became of the files of a pass, by their relative paths, in order. -/
structure Summary where
  /-- The written files. -/
  written : List Path
  /-- The files that were left alone. -/
  unchanged : List Path
  deriving Repr, DecidableEq, Inhabited

namespace Summary

/-- No file has been taken. -/
def empty : Summary := ⟨[], []⟩

/-- The number of files. -/
def total (summary : Summary) : Nat := summary.written.length + summary.unchanged.length

/-- Adds a file. -/
def add (summary : Summary) (path : Path) : Outcome → Summary
  | .written => { summary with written := summary.written ++ [path] }
  | .unchanged => { summary with unchanged := summary.unchanged ++ [path] }

end Summary

/-- Hands files to a sink one after the other; the first problem ends it. -/
def emitAll {σ : Type} (sink : Sink σ) (summary : Summary) :
    List SourceFile → σ → σ × Except Problem Summary
  | [], state => (state, .ok summary)
  | file :: rest, state =>
      match sink.emit state file with
      | (next, .error problem) => (next, .error problem)
      | (next, .ok outcome) => emitAll sink (summary.add file.relativePath outcome) rest next

/-- The files for the properties of a source. -/
def filesOf (settings : Settings) (source : PropertySource) :
    Except Problem (List SourceFile) :=
  match source.discover settings.symbols.marker with
  | .error problem => .error problem
  | .ok properties =>
      match compile settings properties with
      | .error misuse => .error (.misuse misuse)
      | .ok files => .ok files

/-- A generation pass. -/
def run {σ : Type} (settings : Settings) (source : PropertySource) (sink : Sink σ) (state : σ) :
    σ × Except Problem Summary :=
  match filesOf settings source with
  | .error problem => (state, .error problem)
  | .ok files => emitAll sink .empty files state

end Wiring
