import NavCaster.Core.Message
import NavCaster.Session.Chunked
import NavCaster.Session.Reply

namespace NavCaster.Session.ServerNtrip

open NavCaster.Library.Strto (Bytes)
open NavCaster.Library.Scan (ascii)
open NavCaster.Core.Message
open NavCaster.Service.Request (ConnectInfo)
open NavCaster.Service.BasicAuth (Software)
open NavCaster.Session.Reply
open NavCaster.Session.Chunked (Decoder)

structure Config where
  software : Software
  heartbeatInterval : Int
  heartbeatMsg : Bytes
  unsendByteLimit : Int

/-- The session of a base. `listening` says that it is called when its connection brings
something. -/
structure Server where
  mountPoint : Bytes
  userName : Bytes
  groupUid : Bytes
  ntripVersion2 : Bool
  transferWithChunked : Bool
  stopped : Bool := false
  registered : Bool := false
  timeoutEvFlag : Bool := false
  listening : Bool := false
  decoder : Decoder := {}
  deriving DecidableEq

inductive Effect
  | login (userName : Bytes)
  | logout (userName : Bytes)
  | register (mountPoint userName groupUid : Bytes)
  | withdraw (mountPoint userName : Bytes)
  | write (data : Bytes)
  | destroy
  deriving DecidableEq

variable {P : Type} (cfg : Config)

def create (info : ConnectInfo P) : Server where
  mountPoint := info.mountPoint
  userName := info.userName
  groupUid := if info.groupUid = [] then ascii "default" else info.groupUid
  ntripVersion2 := info.ntripVersion = ascii "Ntrip/2.0"
  transferWithChunked := info.httpChunked = ascii "chunked"

def start (s : Server) : Server × List Effect :=
  ({ s with stopped := false }, [.login s.userName])

def stop (s : Server) : Server × List Effect :=
  if s.stopped then (s, [])
  else
    ({ s with stopped := true, listening := false, timeoutEvFlag := false, registered := false },
      .logout s.userName ::
        ((if s.registered then [.withdraw s.mountPoint s.userName] else []) ++ [.destroy]))

def reply (t : ℤ) (s : Server) : Bytes :=
  buildNrtipReply cfg.software t .server s.ntripVersion2 s.transferWithChunked

def running (t : ℤ) (s : Server) : Server × List Effect :=
  ({ s with
      listening := true
      timeoutEvFlag := s.timeoutEvFlag || decide (0 < cfg.heartbeatInterval) },
    [.write (reply cfg t s)])

/-- `unsend` is the length of what has not been sent yet. -/
def sendHeartBeatToServer (unsend : Nat) (s : Server) : Server × List Effect :=
  if 0 < cfg.unsendByteLimit ∧ cfg.unsendByteLimit < unsend then stop s
  else if cfg.heartbeatMsg = [] then (s, [])
  else (s, [.write cfg.heartbeatMsg])

def publishDataFromEvbuf (s : Server) : Server :=
  if s.decoder.recvEvbuf = [] then s
  else
    { s with decoder :=
        { s.decoder with
          recvEvbuf := []
          published := s.decoder.published ++ [s.decoder.recvEvbuf] } }

/-- `none` where an exception leaves the callback, which ends the process. -/
def publishDataFromChunk (s : Server) : Option (Server × List Effect) :=
  let s := { s with decoder := Chunked.ServerNtrip.publishDataFromChunk s.decoder }
  match s.decoder.ending with
  | none => some (s, [])
  | some .stop => some (stop s)
  | some _ => none

def publishRecvRawData (s : Server) : Option (Server × List Effect) :=
  if s.transferWithChunked then publishDataFromChunk s else some (publishDataFromEvbuf s, [])

def readCallback (data : Bytes) (s : Server) : Option (Server × List Effect) :=
  publishRecvRawData
    { s with decoder := { s.decoder with recvEvbuf := s.decoder.recvEvbuf ++ data } }

def eventCallback (s : Server) : Server × List Effect := stop s

def timeoutCallback (unsend : Nat) (s : Server) : Server × List Effect :=
  sendHeartBeatToServer cfg unsend s

/-- The group is that of the answer, where it names one; `none` is an answer other than `OK`. -/
def authLoginCallback (groupUid : Option Bytes) (s : Server) : Server × List Effect :=
  match groupUid with
  | some groupUid =>
    let s := { s with groupUid := if groupUid = [] then s.groupUid else groupUid }
    (s, [.register s.mountPoint s.userName s.groupUid])
  | none => stop s

def casterRegisterCallback (t : ℤ) (r : CasterReply) (s : Server) : Server × List Effect :=
  match r with
  | .ok => running cfg t { s with registered := true }
  | .err => stop s
  | _ => (s, [])

end NavCaster.Session.ServerNtrip
