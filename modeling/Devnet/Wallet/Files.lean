set_option autoImplicit false

namespace Devnet.Files

abbrev Place := List String

def within (place : Place) (names : List String) : List Place := names.map fun name => name :: place

def here : Place := ["here", "home"]

def directories : List Place :=
  [] :: here ::
    within []
      ["boot", "dev", "etc", "home", "media", "mnt", "opt", "proc", "root", "run", "srv", "sys", "tmp", "usr",
        "var"] ++
    within ["dev"] ["fd", "mqueue", "pts", "shm"] ++
    within ["etc"]
      ["apt", "cron.d", "default", "init.d", "opt", "profile.d", "security", "skel", "ssl"] ++
    within ["proc"] ["net", "self", "sys"] ++
    within ["run"] ["lock"] ++
    within ["sys"] ["class", "dev", "devices", "fs", "kernel"] ++
    within ["usr"]
      ["bin", "games", "include", "lib", "lib64", "libexec", "local", "sbin", "share", "src"] ++
    within ["local", "usr"] ["bin", "etc", "games", "include", "lib", "sbin", "share", "src"] ++
    within ["share", "usr"] ["doc", "man", "zoneinfo"] ++
    within ["var"]
      ["backups", "cache", "lib", "local", "lock", "log", "mail", "opt", "run", "spool", "tmp"]

def plainFiles : List Place :=
  within ["etc"]
      ["bash.bashrc", "debian_version", "environment", "fstab", "group", "host.conf", "hostname", "hosts",
        "issue", "issue.net", "ld.so.cache", "ld.so.conf", "login.defs", "mtab", "nsswitch.conf",
        "os-release", "passwd", "profile", "resolv.conf", "services", "shadow", "shells"] ++
    within ["dev"]
      ["full", "null", "ptmx", "random", "stderr", "stdin", "stdout", "tty", "urandom", "zero"] ++
    within ["proc"] ["cpuinfo", "meminfo", "mounts", "stat", "uptime", "version"]

-- Directories at the root that are the ones of the same name below `/usr`.
def linked : List String := ["bin", "lib", "lib64", "sbin"]

def systemPrograms : List String := ["echo", "false", "true"]

inductive Target where
  | directory
  | plain
  | program (name : String)
  | missing
  | behindFile
  | tooLong
  deriving DecidableEq, Repr

def longestName : Nat := 255

def longestPath : Nat := 4095

def parts (current : List Char) : List Char → List String
  | [] => [String.ofList current.reverse]
  | '/' :: rest => String.ofList current.reverse :: parts [] rest
  | c :: rest => parts (c :: current) rest

-- What a path leads to that names a file and then `names`; a slash at its end is an empty name.
def fileTarget (target : Target) (names : List String) : Target :=
  if names.isEmpty then target else .behindFile

-- What the names of a path lead to from a directory. Empty names and single dots stay there.
def walk (place : Place) : List String → Target
  | [] => .directory
  | name :: rest =>
      if name = "" ∨ name = "." then walk place rest
      else if name = ".." then walk place.tail rest
      else if name.utf8ByteSize > longestName then .tooLong
      else
        let next : Place := if place = [] ∧ name ∈ linked then [name, "usr"] else name :: place
        if next ∈ directories then walk next rest
        else if next ∈ plainFiles then fileTarget .plain rest
        else if place = ["bin", "usr"] ∧ name ∈ systemPrograms then fileTarget (.program name) rest
        else .missing

def target (path : String) : Target :=
  if path.utf8ByteSize > longestPath then .tooLong
  else
    match path.toList with
    | '/' :: rest => walk [] (parts [] rest)
    | chars => walk here (parts [] chars)

end Devnet.Files
