import FileBroker.FileSystem.Calls
import FileBroker.Helper.Terminal
import FileBroker.Shell.Run
import FileBroker.Slot.Shared

namespace FileBroker

-- A machine on which helpers are started.
structure Host where
  -- Where the helper program is.
  helperPath : String := "privfs-helper"
  -- Who the processes belong to.
  uid        : UInt32 := 0
  -- The number of the next process.
  pid        : UInt32 := 4242
  -- Where the proxy listens.
  address    : String := "@privfs"
  -- Why a file that is there cannot be read.
  unreadable : String → Option IoError := fun _ => none

namespace Host

-- Shells, and programs that start one for someone else.
def shells : List String := ["sh", "dash", "bash", "su"]

def programDirs : List String := ["/bin/", "/usr/bin/"]

def interpreters : List String := ["/bin/sh", "/bin/dash", "/bin/bash", "/usr/bin/env sh"]

-- A program of the system, by the name it is known by.
def system? (name : String) : Option Shell.Program :=
  if shells.contains name then some .shell
  else if Shell.builtins.contains name then some (.builtin name)
  else none

-- The program in a file that may be run. Its first line says what runs it.
def ofContent (content : Bytes) : Except Errno.Code Shell.Program :=
  let text := Utf8.decodeLossy content
  match text.toList with
  | '#' :: '!' :: rest =>
    let line := rest.takeWhile (· ≠ '\n')
    if interpreters.contains (trimEnd (String.ofList (line.dropWhile isBlank))) then
      .ok (.script (String.ofList (rest.drop line.length)))
    else .error Errno.noent
  | _ => .error Errno.noexec

def find (h : Host) (fs : FileSystem) (name : String) : Except Errno.Code Shell.Program :=
  if name = h.helperPath then .ok .helper
  else
    let below := programDirs.filterMap fun dir => name.dropPrefix? dir |>.map (·.toString)
    match (name :: below).findSome? system? with
    | some p => .ok p
    | none   =>
      -- Every directory of programs leads to itself and to the one above it.
      if !name.toList.contains '/' then
        .error (if name = "." ∨ name = ".." then Errno.acces else Errno.noent) else
      match fs.resolve true none (Utf8.encode name) with
      | .error e => .error e
      | .ok i    =>
        match fs.inode? i with
        | some { content := .regular content, mode, .. } =>
          if mode &&& 0o111 = 0 then .error Errno.acces else ofContent content
        | _ => .error Errno.acces

-- A script without a first line that says so is run all the same by a shell.
def findForShell (h : Host) (fs : FileSystem) (name : String) : Except Errno.Code Shell.Program :=
  match h.find fs name, fs.resolve true none (Utf8.encode name) with
  | .error e, .ok i =>
    match fs.content? i with
    | some (.regular content) =>
      if e = Errno.noexec then .ok (.script (Utf8.decodeLossy content)) else .error e
    | _ => .error e
  | r, _ => r

-- The connection that a started helper makes. Its terminal comes first.
def connection (h : Host) (fs : FileSystem) : Connection (Server FileSystem Fd) Fd :=
  let (terminal, fs) := fs.openFile .terminal
  { credentials := { pid? := some h.pid.toInt32, uid := h.uid }
    link := {
      channel := { inbound := { queue := [{ bytes := [Channel.marker], fds := [terminal] }] } }
      far     := { channel := {}, world := fs, gate := .waiting [] } } }

-- No word that a process is started with can hold NUL.
def nulInWord : IoError := .other "nul byte found in provided data"

def spawn (h : Host) (config : Config) (fs : FileSystem) :
    Except IoError (Child (Server FileSystem Fd) Fd) :=
  let line := Shell.helperLine config.helperPath h.address
  if (config.elevationCommand ++ line).toList.contains '\x00' then .error nulInWord else
  match h.find fs config.elevationCommand with
  | .error e    => .error (.os e)
  | .ok program =>
    let r := Shell.run { pid := h.pid.toNat, args := [], find := h.findForShell fs } program
      ["-c", line]
    match r.helper? with
    | some time => .ok {
        output      := r.output ++ [(time, Greeting.announce h.pid)]
        connections := [h.connection fs] }
    | none => .ok { output := r.output, exit? := some (r.clock, r.status) }

def writer : Writer (Server FileSystem Fd) Fd where
  write fd data s :=
    match s.world.files[fd]? with
    | some .terminal => (.ok (), s.type data)
    | _ =>
      match s.world.write fd data with
      | (.ok (), world)  => (.ok (), { s with world })
      | (.error e, _)    => (.error (.os e), s)

def peer : Peer (Server FileSystem Fd) Fd := Server.peer FileSystem.kernel

-- The file system as a helper left it that could not be used is kept.
def launch (h : Host) (config : Config) (fs : FileSystem) :
    Except ProxyError (Proxy (Server FileSystem Fd) Fd) × FileSystem :=
  match h.spawn config fs with
  | .error e  => (.error (.startup (.elevation config.elevationCommand e)), fs)
  | .ok child =>
    match child.establish peer writer config with
    | { result := .ok pid, link? := some link } =>
      let (cwd, world) := link.far.world.openFile (.file fs.cwd .path false 0)
      (.ok (Proxy.launched pid { link with far := { link.far with world } } cwd), world)
    | { result := .error e, link? } => (.error (.startup e), (link?.map (·.far.world)).getD fs)
    | { result := .ok _, link? := none } => (.error (.startup .timedOut), fs)

def connector (h : Host) (config : Config) :
    Connector FileSystem (Server FileSystem Fd) Fd where
  peer    := peer
  connect := h.launch config

end Host

end FileBroker
