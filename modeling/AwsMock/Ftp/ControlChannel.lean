import AwsMock.Ftp.Authorization
import AwsMock.Lib.Delimiter

/-!
# The control connection of a session

Bytes of the client come in as the network cuts them; `readFtpCommand` takes one line after the other out of them, and
each line is answered once. Answers are posted to a strand, which keeps them in a queue and writes the first of the queue
to the socket. Data connections post their messages to the same strand, at any time.
-/

namespace AwsMock.Ftp

open Lib

/-- What ends a line of the client. -/
def lineEnd : Str := str "\r\n"

/-- The text of an output that goes to the control connection. -/
def Output.text? : Output → Option Str
  | message m => some m.str
  | raw text => some text
  | _ => none

/-- A text that was posted, and the line that it answers. -/
structure Posted where
  text : Str
  answers : Option Str := none
  deriving DecidableEq

/-- A handler on the strand of the control connection. -/
inductive StrandTask where
  | push (p : Posted)
  | written (error : Bool)
  deriving DecidableEq

/-- A session, the bytes read ahead, and its answers on their way. What came from the client, what was posted and what
    went out is kept, and whether the client is gone and a write has failed. -/
structure ControlChannel where
  process : FtpProcess
  commandInputStream : Str := []
  commandWriteStrand : List StrandTask := []
  commandOutputQueue : List Posted := []
  writing : Bool := false
  gone : Bool := false
  failed : Bool := false
  received : Str := []
  posted : List Posted := []
  sent : Str := []

/-- Bytes arrive; a line is read; the client is gone; a data connection is accepted or not, a file ends; a download says
    something; the strand runs its next handler; a write ends, after an error in the middle of the text. -/
inductive ControlEvent where
  | arrive (data : Str)
  | read (host : Host)
  | closed
  | accepted (i : Nat) (error : Bool)
  | ended (i : Nat) (host : Host)
  | other (m : FtpMessage)
  | strand
  | wrote (error : Option Nat)

namespace ControlChannel

/-- `sendRawFtpMessage`. -/
def post (c : ControlChannel) (texts : List Posted) : ControlChannel :=
  { c with commandWriteStrand := c.commandWriteStrand ++ texts.map .push, posted := c.posted ++ texts }

/-- A handler runs, and what it says is posted. -/
def handle (cfg : Config) (e : FtpEvent) (c : ControlChannel) : Option ControlChannel :=
  (FtpProcess.step cfg e c.process).map fun p =>
    post { c with process := p }
      (((p.outputs.drop c.process.outputs.length).filterMap Output.text?).map fun text => ⟨text, e.line?⟩)

/-- The next handler on the strand. A write that has ended is the end of the first text of the queue; after an error the
    text stays there, and the queue is never written again. -/
def runTask (c : ControlChannel) : StrandTask → ControlChannel
  | .push p =>
    { c with commandOutputQueue := c.commandOutputQueue ++ [p], writing := c.writing || c.commandOutputQueue.isEmpty }
  | .written false =>
    { c with commandOutputQueue := c.commandOutputQueue.tail, writing := !c.commandOutputQueue.tail.isEmpty }
  | .written true => c

/-- The write of the first text ends, with an error after so many bytes or without one; its handler is posted. -/
def endWrite (c : ControlChannel) (first : Posted) (error : Option Nat) : ControlChannel :=
  { c with
    commandWriteStrand := c.commandWriteStrand ++ [.written error.isSome]
    writing := false
    failed := c.failed || error.isSome
    sent := c.sent ++ (error.map fun n => first.text.take n).getD first.text }

/-- One event; none where it cannot happen. Nothing is read while the bytes at hand hold a line. -/
def step (cfg : Config) (e : ControlEvent) (c : ControlChannel) : Option ControlChannel :=
  if c.process.ending ≠ none then none
  else match e with
    | .arrive data =>
      if c.process.session.reading ∧ cutLine lineEnd c.commandInputStream = none then
        some { c with commandInputStream := c.commandInputStream ++ data, received := c.received ++ data }
      else none
    | .read host =>
      match cutLine lineEnd c.commandInputStream with
      | some (line, rest) => handle cfg (.command line host) { c with commandInputStream := rest }
      | none => none
    | .closed =>
      if cutLine lineEnd c.commandInputStream = none then handle cfg .disconnected { c with gone := true } else none
    | .accepted i error => handle cfg (.accepted i error) c
    | .ended i host => handle cfg (.ended i host) c
    | .other m => some (c.post [⟨m.str, none⟩])
    | .strand =>
      match c.commandWriteStrand with
      | task :: tasks => some (runTask { c with commandWriteStrand := tasks } task)
      | [] => none
    | .wrote error =>
      match c.writing, c.commandOutputQueue with
      | true, first :: _ =>
        some (c.endWrite first error)
      | _, _ => none

/-- `start`: the client is greeted. -/
def start (db : UserDatabase) : ControlChannel :=
  post { process := startSession db } (((startSession db).outputs.filterMap Output.text?).map fun text => ⟨text, none⟩)

end ControlChannel

end AwsMock.Ftp
