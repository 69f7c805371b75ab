import Chronicle.CommandLine.Command
import Chronicle.Packet.Wire
import Chronicle.Storage.LineFile
import Chronicle.Transport.Service
import Std.Async.DNS
import Std.Async.Signal
import Std.Async.UDP

/-!
# The program

`serve` runs a live arena behind a UDP socket and records it in a file, until
it is interrupted; `replay` verifies a recording.
-/

namespace Chronicle
namespace Program

open CommandLine
open Std.Async

/-! ## The recording file -/

/-- A file that is written, with the length up to the last complete write, at
which the handle stands. -/
structure RecordingFile where
  handle : IO.FS.Handle
  committed : IO.Ref Nat

/-- Makes an empty file. -/
def RecordingFile.create (path : String) : IO RecordingFile := do
  return ⟨← IO.FS.Handle.mk path .write, ← IO.mkRef 0⟩

/-- Writes a text at the end of the last complete write. -/
def RecordingFile.write (file : RecordingFile) (text : String) : IO (Except StorageError Unit) := do
  try
    file.handle.truncate
    file.handle.putStr text
    file.handle.flush
    file.committed.modify (· + text.utf8ByteSize)
    return .ok ()
  catch error => return .error (.io (toString error))

/-- The file as a storage. -/
def RecordingFile.storage (file : RecordingFile) : Storage IO where
  writeMetadata metadata := file.write (Recording.line metadata.toJson)
  appendFrames frames := file.write (LineFile.batchText frames)

/-- Starts to watch for an interrupt; the result tells whether there was one. -/
def watchInterrupt : IO (IO Bool) := do
  let signal ← (← Signal.Waiter.mk .sigint false).wait
  return IO.hasFinished signal

/-! ## Addresses -/

/-- The address of a socket. -/
def addressOf : Std.Net.SocketAddress → Address
  | .v4 socket =>
      let number := socket.addr.octets.foldl (fun n byte => n * 256 + byte.toNat) 0
      ⟨.v4 (.ofNat 32 number), socket.port⟩
  | .v6 socket =>
      let number := socket.addr.segments.foldl (fun n group => n * 65536 + group.toNat) 0
      ⟨.v6 (.ofNat 128 number) 0, socket.port⟩

/-- The socket of an address. -/
def socketAddress (address : Address) : Std.Net.SocketAddress :=
  match address.machine with
  | .v4 number =>
      let byte (shift : Nat) : UInt8 := .ofNat (number.toNat >>> shift)
      .v4 ⟨.ofParts (byte 24) (byte 16) (byte 8) (byte 0), address.port⟩
  | .v6 number _ =>
      let group (place : Nat) : UInt16 := .ofNat (number.toNat >>> (16 * (7 - place)))
      .v6 ⟨.ofParts (group 0) (group 1) (group 2) (group 3) (group 4) (group 5) (group 6) (group 7),
        address.port⟩

/-- The socket of a host and a port; the host may be a name. -/
def resolveHost (host : String) (port : UInt16) : Async Std.Net.SocketAddress := do
  match Address.parse? s!"{host}:{port}" with
  | some address => return socketAddress address
  | none =>
      let found : Array Std.Net.IPAddr ← DNS.getAddrInfo host (toString port)
      match found.toList.head? with
      | some (.v4 ip) => return .v4 ⟨ip, port⟩
      | some (.v6 ip) => return .v6 ⟨ip, port⟩
      | none => throw (IO.userError s!"no address for {host}")

/-! ## Serving -/

/-- What a server works with: its socket, the storage of the recording, the
nanoseconds between two ticks, and whether there was an interrupt. -/
structure Server where
  socket : UDP.Socket
  storage : Storage IO
  interval : Option Nat
  interrupted : IO Bool

/-- A server at work: the service, the writer of the recording, and when the
next tick and the next look for silent clients are due. -/
structure Serving where
  service : Service Arena.State
  writer : Writer := {}
  tickDue : Option Nat
  checkDue : Nat

/-- A datagram that is being received. -/
abbrev Reception := AsyncTask (ByteArray × Option Std.Net.SocketAddress)

/-- A reading of the clocks. -/
def readClock : IO Clock := do
  let wall ← Std.Time.Timestamp.now
  return ⟨← IO.monoNanosNow, UInt64.ofNat wall.toMillisecondsSinceUnixEpoch.val.toNat⟩

namespace Server

/-- Starts to receive a datagram. -/
def receive (server : Server) : IO Reception := (server.socket.recv 4096).toIO

/-- Sends packets; one that cannot be sent is reported. -/
def deliver (server : Server) (datagrams : List (Address × Packet)) : IO Unit :=
  for (address, packet) in datagrams do
    try (server.socket.send ⟨packet.encode.toArray⟩ (some (socketAddress address))).block
    catch error => IO.eprintln s!"Failed to send packet to {address.toText}: {error}"

/-- Makes a move, works off what is left, sends what is to be sent and stores
what is to be stored. -/
def perform (server : Server) (move : Move) (serving : Serving) : IO Serving := do
  let chance : Chance := { draw := ← IO.rand 0 4294967295 }
  let (sent, service) := (serving.service.after Arena.rules move).deliver Arena.rules chance
  server.deliver sent
  let (commands, land) := service.task.land.takeCommands
  let writer ← commands.foldlM (Writer.handle server.storage) serving.writer
  return { serving with
    service := { service with task := { service.task with land := land } }
    writer := writer }

/-- Makes the moves that are due. -/
def performDue (server : Server) (serving : Serving) : IO Serving := do
  let clock ← readClock
  let mut serving := serving
  if serving.checkDue ≤ clock.elapsed then
    serving ← server.perform (.dropSilent clock) serving
    serving := { serving with checkDue := clock.elapsed + 1000000000 }
  match serving.tickDue, server.interval with
  | some due, some interval =>
      if due ≤ clock.elapsed then
        serving ← server.perform .tick serving
        serving := { serving with tickDue := some (clock.elapsed + interval) }
  | _, _ => pure ()
  return serving

/-- Handles what was received; what is no packet is dropped. -/
def handle (server : Server) (reception : Reception) (serving : Serving) : IO Serving := do
  match ← IO.wait reception with
  | .ok (bytes, some source) =>
      match Packet.decode bytes.toList with
      | .ok packet =>
          server.perform (.packet (← readClock) packet (addressOf source)) serving
      | .error _ => return serving
  | .ok (_, none) => return serving
  | .error error =>
      IO.eprintln s!"Error receiving packet: {error}"
      IO.sleep 10
      return serving

/-- Serves until there is an interrupt. -/
partial def run (server : Server) (reception : Reception) (serving : Serving) : IO Serving := do
  if ← server.interrupted then return serving
  let serving ← server.performDue serving
  if ← IO.hasFinished reception then
    let serving ← server.handle reception serving
    server.run (← server.receive) serving
  else
    IO.sleep 1
    server.run reception serving

/-- Says goodbye to the clients and stores what is left of the recording. -/
def finish (server : Server) (serving : Serving) : IO Unit := do
  let (sent, service) := serving.service.shutdown.deliver Arena.rules default
  server.deliver sent
  discard <| service.task.land.shutdown server.storage serving.writer

end Server

/-- Serves a live arena. -/
def serve (options : ServeOptions) : IO UInt32 := do
  let socket ← UDP.Socket.mk
  socket.bind (← (resolveHost options.host options.port).block)
  let file ← RecordingFile.create options.recordingPath
  let created := (← Std.Time.Timestamp.now).toNanosecondsSinceUnixEpoch.val
  match options.land (.ofNanoseconds created) with
  | .error error =>
      IO.eprintln s!"Error: {error.message}"
      return 1
  | .ok land =>
      let server : Server := ⟨socket, file.storage, land.tickInterval, ← watchInterrupt⟩
      let start ← IO.monoNanosNow
      let service : Service Arena.State :=
        { transport := { clients := { capacity := options.maxClients } }, task := { land := land } }
      let tickDue := land.tickInterval.map fun _ => start
      let served ← server.run (← server.receive)
        { service := service, tickDue := tickDue, checkDue := start }
      server.finish served
      return 0

/-! ## Replaying -/

/-- Replays tick by tick until the end, or until it is interrupted. -/
partial def replayLoop (interrupted : IO Bool) (replay : Replay Arena.State) :
    IO (Except LandError ReplaySummary) := do
  if ← interrupted then
    IO.println "Received Ctrl+C, cancelling replay..."
    return replay.run Arena.rules fun _ => true
  match replay.step Arena.rules with
  | (.error error, _) => return .error error
  | (.ok none, replay) => return replay.land.replaySummary
  | (.ok (some _), replay) => replayLoop interrupted replay

/-- Replays a recording and reports what was found. -/
def replay (path : String) (strict : Bool) : IO UInt32 := do
  let text ← (IO.FS.readFile path).toBaseIO
  let source := Source.ofFile path (text.mapError toString)
  let interrupted ← watchInterrupt
  let result ←
    match source >>= fun source => startReplay source strict with
    | .ok replay => replayLoop interrupted replay
    | .error error => pure (.error error)
  match result with
  | .ok summary =>
      for line in reportLines summary do
        IO.println line
      if summary.passed then return 0
      IO.eprintln "Error: \"replay did not match the recording\""
      return 1
  | .error error =>
      IO.eprintln s!"Error: {error.message}"
      return 1

/-- What the program can be told. -/
def usage : String :=
  "Usage:\n" ++
  "  serve [-H HOST] [-p PORT] [-t TICK_RATE] [-f FLUSH_INTERVAL] [--land-id LAND_ID]\n" ++
  "        [-r RECORDING] [-m MAX_CLIENTS]\n" ++
  "  replay [-s] PATH"

end Program
end Chronicle

open Chronicle in
/-- Does what the command line says; a failure is reported, with exit code 1. -/
def main (arguments : List String) : IO UInt32 := do
  match CommandLine.Command.read arguments with
  | .ok (.serve options) =>
      try Program.serve options
      catch error =>
        IO.eprintln s!"Error: {error}"
        return 1
  | .ok (.replay path strict) => Program.replay path strict
  | .error .help =>
      IO.println Program.usage
      return 0
  | .error .wrong =>
      IO.eprintln Program.usage
      return CommandLine.Stop.wrong.exitCode
