import ExprLang.Format
import ExprLang.Tree.Outline

/-!
# Runs

A run shows one or more sources in a format.  A job that gives a source text has that as its only source;
otherwise the sources are the inputs it names, where `-` is the standard input.

All sources are read and rendered before anything is written, so nothing is written unless all of them
can be shown.  Outputs appear in the order of the inputs, each under a line with the name of its input
if there are several.  `Job.chunks` is the list of what is written, piece by piece; a sink takes as many
of the pieces as it can.

How programs look in outline is left open up to `Job.run`, which is the run with the outlines of
`Program.outline`.
-/

namespace ExprLang

/-- What a run is to show.  A format that does not exist is taken for the parenthesised form. -/
structure Job where
  expr : Text
  inputs : List Text
  format : Text
  deriving DecidableEq

/-- Where the texts of inputs come from. -/
structure Supply where
  /-- The files by name. -/
  file : Text → Except FileError Text
  /-- What can be read from standard input. -/
  stdin : Text
  /-- The failure that reading standard input ends in, if it does. -/
  stdinFailure : Option Text
  /-- Whether the run has been called off, so that no input is read. -/
  canceled : Bool

/-- Where the output goes: how many pieces are taken, if there is a bound, and how the next one fails. -/
structure Sink where
  room : Option Nat
  failure : Text
  deriving DecidableEq

/-- A source of a run. -/
inductive Source where
  /-- A text given by the job itself. -/
  | inline (text : Text)
  /-- An input given by its name. -/
  | input (name : Text)
  deriving DecidableEq

namespace Source

/-- The name of a source. -/
def name : Source → Text
  | .inline _ => utf8 "<expr>"
  | .input name => name

/-- The text of a source. -/
def read (supply : Supply) : Source → Except RunError Text
  | .inline text => .ok text
  | .input name =>
    if supply.canceled then .error .canceled
    else if name = stdinName then
      match supply.stdinFailure with
      | some message => .error (.stdin message)
      | none => .ok supply.stdin
    else (supply.file name).mapError (.file name)

/-- A source as it is shown in a format, and what is logged on the way. -/
def process (outline : Program → Text) (supply : Supply) (format : Format) (s : Source) :
    Except RunError Text × List Event :=
  match s.read supply with
  | .error e => (.error e, [])
  | .ok text => format.render outline s.name text

/-- Sources as they are shown, one after another up to the first that fails, and what is logged on the
way. -/
def processAll (outline : Program → Text) (supply : Supply) (format : Format) :
    List Source → Except RunError (List Text) × List Event
  | [] => (.ok [], [])
  | s :: ss =>
    match s.process outline supply format with
    | (.error e, events) => (.error e, events)
    | (.ok out, events) =>
      let (outs, more) := processAll outline supply format ss
      (outs.map (out :: ·), events ++ more)

end Source

namespace Job

/-- The format in which a job is shown. -/
def shownIn (j : Job) : Format :=
  (Format.ofName? j.format).getD .sexpr

/-- The sources of a job. -/
def sources (j : Job) : Except RunError (List Source) :=
  if j.expr ≠ [] then .ok [.inline j.expr]
  else if j.inputs = [] then .error .noInput
  else if 1 < j.inputs.count stdinName then .error .repeatedStdin
  else .ok (j.inputs.map .input)

/-- What is written: the outputs, each under the name of its source if there are several. -/
def chunks (shown : List (Source × Text)) : List Text :=
  if shown.length ≤ 1 then shown.map (·.2)
  else shown.flatMap fun (s, out) => [utf8 "# " ++ s.name ++ utf8 "\n", out]

end Job

/-- What comes of a run. -/
structure Report where
  written : Text
  error : Option RunError
  events : List Event
  deriving DecidableEq

/-- A sink after one more piece, unless it takes no more. -/
def Sink.take? (sink : Sink) : Option Sink :=
  match sink.room with
  | none => some sink
  | some 0 => none
  | some (n + 1) => some { sink with room := some n }

/-- Writes pieces one after another, up to the first that the sink does not take. -/
def Sink.write (sink : Sink) : List Text → Text × Option RunError
  | [] => ([], none)
  | chunk :: chunks =>
    match sink.take? with
    | none => ([], some (.write sink.failure))
    | some after =>
      let (written, error) := after.write chunks
      (chunk ++ written, error)

/-- What comes of a run after its sources have been processed: only when all of them can be shown is
anything written. -/
def Job.conclude (j : Job) (sink : Sink) (sources : List Source) (events : List Event) :
    Except RunError (List Text) → Report
  | .error e => ⟨[], some e, events⟩
  | .ok outs =>
    let (written, error) := sink.write (chunks (sources.zip outs))
    ⟨written, error, events ++ [.rendered sources.length j.format]⟩

/-- Runs a job, with `outline` for the outlines of programs. -/
def Job.runWith (outline : Program → Text) (j : Job) (supply : Supply) (sink : Sink) : Report :=
  match j.sources with
  | .error e => ⟨[], some e, []⟩
  | .ok sources =>
    let (result, events) := Source.processAll outline supply j.shownIn sources
    j.conclude sink sources events result

/-- Runs a job. -/
def Job.run (j : Job) (supply : Supply) (sink : Sink) : Report :=
  j.runWith Program.outline supply sink

end ExprLang
