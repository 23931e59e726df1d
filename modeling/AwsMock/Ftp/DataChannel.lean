import AwsMock.Ftp.Session
import AwsMock.Lib.Machine

/-!
# The data connections to a client

`sendFile`, `sendDirectoryListing` and `sendNameList` of an `FtpSession`. The handler of an accepted connection
posts to two strands: the one reads the file, the other puts what was read into the buffer of the session and
writes the buffer to the socket. Strands run their handlers one after the other; all else happens in any order, so a
handler that posts more than once is taken apart into its posts.
-/

namespace AwsMock.Ftp

open Lib

/-- The size of the buffers that a file is read into. -/
def chunkSize : Nat := 1024 * 1024 * 1

/-- What the handler of an accepted connection posts: a read of its file, or data to add to the buffer. -/
inductive Post where
  | read
  | add (data : Option Str)
  deriving DecidableEq

/-- What is sent over a connection: a file that was opened, whose reads may end in an error, or a list. -/
inductive Source where
  | file (content : Str) (faulty : Bool)
  | list (text : Str)
  deriving DecidableEq

def Source.content : Source → Str
  | file content _ => content
  | list text => text

def Source.faulty : Source → Bool
  | file _ faulty => faulty
  | list _ => false

/-- An accepted connection: its file stream, what its socket was given, and what its handler has still to post. -/
structure Download where
  rest : Str := []
  faulty : Bool := false
  eof : Bool := true
  sent : Str := []
  posting : List Post := []
  deriving DecidableEq

/-- Empty data is the end of the transmission. -/
def Source.download : Source → Download
  | file content faulty => { rest := content, faulty := faulty, eof := false, posting := [.read, .read, .read] }
  | list text => { posting := [.add (some text), .add none] }

/-- A handler on the strand of the files, or what is left of it. `fetchMore` names the file to read on, if any. -/
inductive FileTask where
  | read (i : Nat)
  | add (i : Nat) (data : Option Str) (fetchMore : Option Nat)
  deriving DecidableEq

/-- A handler on the strand of the buffer, or what is left of it. -/
inductive BufferTask where
  | add (i : Nat) (data : Option Str) (fetchMore : Option Nat)
  | write (i : Nat) (fetchMore : Option Nat)
  | written (i : Nat) (fetchMore : Option Nat) (error : Bool)
  | fetch (fetchMore : Option Nat)
  | next (i : Nat) (fetchMore : Option Nat)
  deriving DecidableEq

/-- A write that has not completed. -/
structure Writing where
  i : Nat
  data : Str
  fetchMore : Option Nat
  deriving DecidableEq

structure DataChannel where
  transfers : List Download := []
  fileStrand : List FileTask := []
  bufferStrand : List BufferTask := []
  dataBuffer : List (Option Str) := []
  writing : List Writing := []
  said : List FtpReplyCode := []
  deriving DecidableEq

/-- A connection is accepted or not; the handler of a connection makes its next post; a strand runs on; a write
    completes, with an error after so many bytes or without one. -/
inductive DataEvent where
  | accepted (source : Source)
  | refused
  | post (i : Nat)
  | file
  | buffer
  | completed (m : Nat) (error : Option Nat)
  deriving DecidableEq

namespace DataChannel

def accept (c : DataChannel) (source : Source) : DataChannel :=
  { c with transfers := c.transfers ++ [source.download] }

/-- The handler of a connection makes its next post. -/
def post (c : DataChannel) (i : Nat) (t : Download) : Option DataChannel :=
  match t.posting with
  | [] => none
  | .read :: posts => some { c with
      transfers := c.transfers.set i { t with posting := posts }
      fileStrand := c.fileStrand ++ [.read i] }
  | .add data :: posts => some { c with
      transfers := c.transfers.set i { t with posting := posts }
      bufferStrand := c.bufferStrand ++ [.add i data none] }

/-- `readDataFromFileAndSend`, up to its posts. A read that is not filled has come to the end of the file, unless it
    ended in an error. -/
def readDataFromFileAndSend (c : DataChannel) (i : Nat) (tasks : List FileTask) : DataChannel :=
  match c.transfers[i]? with
  | none => { c with fileStrand := tasks }
  | some t =>
    if t.eof then { c with fileStrand := tasks }
    else
      let buffer := t.rest.take chunkSize
      let eof := decide (t.rest.length < chunkSize) && !t.faulty
      let adds :=
        if eof then [FileTask.add i (some buffer) none, .add i none none] else [.add i (some buffer) (some i)]
      { c with
        transfers := c.transfers.set i { t with rest := t.rest.drop chunkSize, eof := eof }
        fileStrand := adds ++ tasks }

/-- `addDataToBufferAndSend`. -/
def addDataToBufferAndSend (c : DataChannel) (i : Nat) (data : Option Str) (fetchMore : Option Nat)
    (tasks : List BufferTask) : DataChannel :=
  { c with
    dataBuffer := c.dataBuffer ++ [data]
    bufferStrand := if c.dataBuffer = [] then tasks ++ [.write i fetchMore] else tasks }

/-- `writeDataToSocket`; the front of an empty buffer is undefined. -/
def writeDataToSocket (c : DataChannel) (i : Nat) (fetchMore : Option Nat) (tasks : List BufferTask) :
    Option DataChannel :=
  match c.dataBuffer with
  | [] => none
  | some data :: _ => some { c with bufferStrand := tasks, writing := c.writing ++ [⟨i, data, fetchMore⟩] }
  | none :: buffer => some { c with
      bufferStrand := tasks, dataBuffer := buffer, said := c.said ++ [.closingDataConnection] }

/-- The next handler on the strand of the buffer, or what is left of the last one. -/
def runBuffer (c : DataChannel) : Option DataChannel :=
  match c.bufferStrand with
  | [] => none
  | .add i data fetchMore :: tasks => some (c.addDataToBufferAndSend i data fetchMore tasks)
  | .write i fetchMore :: tasks => c.writeDataToSocket i fetchMore tasks
  | .written i fetchMore error :: tasks =>
    match c.dataBuffer with
    | [] => none
    | _ :: buffer => some { c with
        dataBuffer := buffer
        bufferStrand := if error then tasks else .fetch fetchMore :: .next i fetchMore :: tasks }
  | .fetch fetchMore :: tasks => some { c with
      fileStrand := c.fileStrand ++ fetchMore.toList.map .read, bufferStrand := tasks }
  | .next i fetchMore :: tasks => some { c with
      bufferStrand := if c.dataBuffer = [] then tasks else tasks ++ [.write i fetchMore] }

/-- A write completes, and its handler goes to the strand. -/
def complete (c : DataChannel) (m : Nat) (error : Option Nat) : Option DataChannel :=
  match c.writing[m]? with
  | none => none
  | some w =>
    if w.data.length < error.getD 0 then none
    else some { c with
      transfers := c.transfers.modify w.i fun t =>
        { t with sent := t.sent ++ w.data.take (error.getD w.data.length) }
      bufferStrand := c.bufferStrand ++ [.written w.i w.fetchMore error.isSome]
      writing := c.writing.eraseIdx m }

/-- One event; none where it cannot happen, or the behaviour is undefined. -/
def step (e : DataEvent) (c : DataChannel) : Option DataChannel :=
  match e with
  | .accepted source => some (c.accept source)
  | .refused => some { c with said := c.said ++ [.transferAborted] }
  | .post i => (c.transfers[i]?).bind (c.post i)
  | .file =>
    match c.fileStrand with
    | [] => none
    | .read i :: tasks => some (c.readDataFromFileAndSend i tasks)
    | .add i data fetchMore :: tasks => some { c with
        fileStrand := tasks, bufferStrand := c.bufferStrand ++ [.add i data fetchMore] }
  | .buffer => c.runBuffer
  | .completed m error => c.complete m error

end DataChannel

end AwsMock.Ftp
