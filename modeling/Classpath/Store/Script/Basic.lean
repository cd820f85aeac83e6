import Classpath.Store.Script.Echo
import Classpath.Store.Script.Token

/-!
# Launcher scripts

The shell scripts that stand in for a launcher: they print lines and end. Only that much of the shell
is understood: `echo`, `exit`, signs that join commands, and where the output goes. Any other command
fails.

* `Classpath.Script.commands?` – the commands of a line.
* `Classpath.Script.run` – what a script prints.
-/

namespace Classpath.Script

/-! ### Commands -/

/-- Where a stream is made to go. -/
inductive Redirection where
  | toFile (stream : Nat) (file : List Char)
  /-- It goes where the stream goes whose number is written. -/
  | toStream (stream : Nat) (number : List Char)
  deriving DecidableEq, Repr

/-- A command. -/
structure Command where
  words : List (List Char) := []
  redirections : List Redirection := []
  deriving DecidableEq, Repr

/-- Whether nothing of a command has been read. -/
def Command.isEmpty (c : Command) : Bool :=
  c.words.isEmpty && c.redirections.isEmpty

/-- The command with one more word. -/
def Command.addWord (c : Command) (w : List Char) : Command :=
  { c with words := c.words ++ [w] }

/-- The command with one more redirection. -/
def Command.redirect (c : Command) (r : Redirection) : Command :=
  { c with redirections := c.redirections ++ [r] }

/-- Whether a command must follow. -/
def Join.needsMore : Join → Bool
  | ifSo | ifNot | pipe => true
  | stop | background => false

/-- The commands of a line and how each is joined to the next one, after the beginning of a command
that has been read. If one is `needed` and missing, or the tokens make no commands, there are none. -/
def commands? (begun : Command) (needed : Bool) : List Token → Option (List (Command × Join))
  | [] =>
    if !begun.isEmpty then some [(begun, .stop)]
    else if needed then none
    else some []
  | .word w :: rest => commands? (begun.addWord w) false rest
  | .toFile n :: .word w :: rest => commands? (begun.redirect (.toFile n w)) false rest
  | .toStream n :: .word w :: rest => commands? (begun.redirect (.toStream n w)) false rest
  | .join how :: rest =>
    if begun.isEmpty then none
    else (commands? {} how.needsMore rest).map ((begun, how) :: ·)
  | _ => none

/-! ### Streams -/

/-- What a stream leads to. -/
inductive Sink where
  | standard
  | error
  | nowhere
  deriving DecidableEq, Repr

/-- What the open streams lead to, by their numbers. -/
abbrev Streams := List (Nat × Sink)

/-- The streams of a script. -/
def streams : Streams :=
  [(0, .nowhere), (1, .standard), (2, .error)]

/-- Why a stream cannot be made to go somewhere. -/
inductive Refusal where
  /-- There is no stream of the number. -/
  | closed
  /-- What is written is no number. -/
  | noNumber
  deriving DecidableEq, Repr

/-- The number of the stream that a file stands for. -/
def streamFile? : String → Option Nat
  | "/dev/stdout" | "/dev/fd/1" => some 1
  | "/dev/stderr" | "/dev/fd/2" => some 2
  | _ => none

/-- The streams after a redirection. A hyphen in place of a number closes the stream. -/
def Redirection.apply (sinks : Streams) : Redirection → Except Refusal Streams
  | toFile n file =>
    .ok ((n, ((streamFile? (String.ofList file)).bind fun m => sinks.lookup m).getD .nowhere) :: sinks)
  | toStream n ['-'] => .ok (sinks.filter fun (m, _) => m ≠ n)
  | toStream n [d] =>
    if d.isDigit then
      match sinks.lookup (d.toNat - '0'.toNat) with
      | some sink => .ok ((n, sink) :: sinks)
      | none => .error .closed
    else .error .noNumber
  | toStream _ _ => .error .noNumber

/-! ### Running -/

/-- What a script has printed. -/
structure Output where
  standard : Bytes := []
  error : Bytes := []
  deriving Repr, Inhabited

/-- The output with a text printed. -/
def Output.print (out : Output) (sink : Sink) (text : List Char) : Output :=
  let bytes := text.map fun c => UInt8.ofNat c.toNat
  match sink with
  | .standard => { out with standard := out.standard ++ bytes }
  | .error => { out with error := out.error ++ bytes }
  | .nowhere => out

/-- What comes of a command. -/
inductive Outcome where
  | done (succeeded : Bool) (out : Output)
  /-- The script is over. -/
  | over (out : Output)

/-- What comes of a command, given the streams and what has been printed before it. -/
def Command.run (sinks : Streams) (out : Output) (c : Command) : Outcome :=
  match c.redirections.foldlM Redirection.apply sinks, c.words with
  | .error .noNumber, _ => .over out
  | _, ['e', 'x', 'i', 't'] :: _ => .over out
  | .error .closed, _ => .done false out
  | .ok _, [] => .done true out
  | .ok sinks, ['e', 'c', 'h', 'o'] :: arguments =>
    match sinks.lookup 1 with
    | some sink => .done true (out.print sink (echoed arguments))
    | none => .done false out
  | .ok _, _ => .done false out

/-- Whether the command after a join is run, given whether the one before it was and what came of the
last one that was run. -/
def Join.goesOn (run succeeded : Bool) : Join → Bool
  | stop | background => true
  | ifSo => succeeded
  | ifNot => !succeeded
  | pipe => run

/-- What comes of the commands of a line. The first one is run if `wanted`; it may be given what was
printed before, and `succeeded` tells of the last one that was run. Commands that run beside others
do not end the script. -/
def runLine (out : Output) (wanted given succeeded : Bool) : List (Command × Join) → Outcome
  | [] => .done succeeded out
  | (c, how) :: rest =>
    let sinks := if how = .pipe then (1, .nowhere) :: streams else streams
    match if wanted then c.run sinks out else .done succeeded out with
    | .done succeeded out =>
      runLine out (how.goesOn wanted succeeded) (how = .pipe) succeeded rest
    | .over out =>
      if given || how = .pipe || how = .background then
        runLine out (how.goesOn wanted true) (how = .pipe) true rest
      else .over out

/-! ### Lines -/

/-- The lines of a script, the present one having begun with `reversed`, the last token first. Where a
command must follow, the line goes on. -/
def splitLines (reversed : List Token) : List Token → List (List Token)
  | [] => [reversed.reverse]
  | .line :: rest =>
    match reversed with
    | .join how :: _ =>
      if how.needsMore then splitLines reversed rest else reversed.reverse :: splitLines [] rest
    | _ => reversed.reverse :: splitLines [] rest
  | t :: rest => splitLines (t :: reversed) rest

/-- What a script prints from its lines on. It ends at a line that makes no commands. -/
def runLines (out : Output) (succeeded : Bool) : List (List Token) → Output
  | [] => out
  | line :: rest =>
    match commands? {} false line with
    | none => out
    | some commands =>
      match runLine out true false succeeded commands with
      | .over out => out
      | .done succeeded out => runLines out succeeded rest

/-- What a script prints. Its first line names the shell. -/
def run (shell : Shell) (script : List Char) : Output :=
  runLines {} true (splitLines [] (tokens shell (script.length + 1) .comment none script))

end Classpath.Script
