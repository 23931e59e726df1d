import AwsMock.Ftp.DataChannel

/-!
# The data connections from a client

`receiveFile` of an `FtpSession`: the handler of a read from the socket posts to the strand of the files, where the data
is written after the next read has been started. The files of different transfers are different.
-/

namespace AwsMock.Ftp

open Lib

/-- A handler on the strand of the files, or what is left of it: to write data, and before that to start the next read;
    only to write it; to close the file. -/
inductive ReceiveTask where
  | write (data : Str) (fetchMore : Bool)
  | store (data : Str)
  | finish
  deriving DecidableEq

/-- An accepted connection: what its file held when it was opened, what was read from the socket, what the file holds,
    how many reads are outstanding, and what the handler of a read has still to post. -/
structure Receiving where
  initial : Str
  arrived : Str := []
  written : Str
  reads : Nat := 1
  posting : List ReceiveTask := []
  closed : Bool := false
  deriving DecidableEq

structure ReceiveChannel where
  uploads : List Receiving := []
  strand : List (Nat × ReceiveTask) := []
  said : List FtpReplyCode := []
  /-- The objects that were stored: which file, and what it held. -/
  stored : List (Nat × Str) := []
  deriving DecidableEq

/-- A connection is accepted or not; a read fills its buffer or ends in an error, which is also how the stream ends; a
    handler makes its next post; the strand runs on. -/
inductive ReceiveEvent where
  | accepted (initial : Str)
  | refused
  | received (i : Nat) (data : Str) (error : Bool)
  | post (i : Nat)
  | strand
  deriving DecidableEq

/-- What the handler of a read posts. -/
def receivePosts (data : Str) (error : Bool) : List ReceiveTask :=
  if error then (if data = [] then [] else [.write data false]) ++ [.finish]
  else if data = [] then [] else [.write data true]

namespace ReceiveChannel

/-- `receiveDataFromSocketAndWriteToFile` when a read completes. -/
def receive (c : ReceiveChannel) (i : Nat) (data : Str) (error : Bool) : Option ReceiveChannel :=
  match c.uploads[i]? with
  | none => none
  | some t =>
    if t.reads = 0 then none
    else if error = false ∧ data.length ≠ chunkSize then none
    else some { c with
      uploads := c.uploads.set i { t with
        arrived := t.arrived ++ data, reads := t.reads - 1, posting := t.posting ++ receivePosts data error } }

/-- The next handler on the strand, or what is left of the last one. -/
def runStrand (c : ReceiveChannel) : Option ReceiveChannel :=
  match c.strand with
  | [] => none
  | (i, task) :: tasks =>
    match c.uploads[i]? with
    | none => none
    | some t =>
      match task with
      | .write data fetchMore => some { c with
          uploads := c.uploads.set i { t with reads := if fetchMore then t.reads + 1 else t.reads }
          strand := (i, .store data) :: tasks }
      | .store data => some { c with
          uploads := c.uploads.set i { t with written := if t.closed then t.written else t.written ++ data }
          strand := tasks }
      | .finish => some { c with
          uploads := c.uploads.set i { t with closed := true }
          strand := tasks
          said := c.said ++ [.closingDataConnection]
          stored := c.stored ++ [(i, t.written)] }

/-- One event; none where it cannot happen. -/
def step (e : ReceiveEvent) (c : ReceiveChannel) : Option ReceiveChannel :=
  match e with
  | .accepted initial => some { c with uploads := c.uploads ++ [{ initial := initial, written := initial }] }
  | .refused => some { c with said := c.said ++ [.transferAborted] }
  | .received i data error => c.receive i data error
  | .post i =>
    match c.uploads[i]? with
    | none => none
    | some t =>
      match t.posting with
      | [] => none
      | task :: posts => some { c with
          uploads := c.uploads.set i { t with posting := posts }, strand := c.strand ++ [(i, task)] }
  | .strand => c.runStrand

end ReceiveChannel

end AwsMock.Ftp
