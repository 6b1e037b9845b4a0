import ScriptHost.NameSet

/-!
# Policies

The limits and restrictions that hold for every run. Two presets are given: one for hosts
that untrusted callers can reach, and one for local work.
-/

namespace ScriptHost

structure Policy where
  /-- The time limit in milliseconds. -/
  timeoutMs : Nat
  enableTimeout : Bool
  maxMemoryBytes : Nat
  enableMemoryLimit : Bool
  restrictApis : Bool
  forbiddenApis : NameSet
  blockedPaths : NameSet
  allowedPaths : NameSet
  blockedLibraries : NameSet
  maxSourceBytes : Nat
deriving DecidableEq

namespace Policy

def kibibyte : Nat := 1024

def mebibyte : Nat := 1024 * kibibyte

/-- Strict limits, for untrusted callers. -/
def production : Policy where
  timeoutMs := 30000
  enableTimeout := true
  maxMemoryBytes := 512 * mebibyte
  enableMemoryLimit := true
  restrictApis := true
  forbiddenApis := .ofList
    ["System.Diagnostics.Process", "Process.Start", "ProcessStartInfo", "Environment.Exit",
      "Environment.FailFast", "Environment.SetEnvironmentVariable", "AppDomain",
      "Assembly.Load", "Assembly.LoadFrom", "Assembly.LoadFile", "Activator.CreateInstance",
      "Type.GetType", "System.Reflection.Emit", "System.Runtime.InteropServices", "DllImport",
      "Marshal", "File.Delete", "Directory.Delete"]
  blockedPaths := .ofList
    ["/etc", "/proc", "/sys", "/dev", "/root", "/boot", "/var/run", "C:\\Windows",
      "C:\\Program Files"]
  allowedPaths := .empty
  blockedLibraries := .ofList
    ["System.Management", "System.Net.Sockets", "System.IO.Pipes", "Microsoft.Win32.Registry",
      "System.ServiceProcess"]
  maxSourceBytes := 64 * kibibyte

/-- Wide limits, for local work. -/
def permissive : Policy where
  timeoutMs := 300000
  enableTimeout := true
  maxMemoryBytes := 0
  enableMemoryLimit := false
  restrictApis := false
  forbiddenApis := .empty
  blockedPaths := .empty
  allowedPaths := .empty
  blockedLibraries := .empty
  maxSourceBytes := mebibyte

/-- The time limit that holds, if any. -/
def effectiveTimeout (p : Policy) : Option Nat :=
  if p.enableTimeout then some p.timeoutMs else none

/-- The memory limit that holds; zero means none. -/
def effectiveMemoryLimit (p : Policy) : Nat :=
  if p.enableMemoryLimit then p.maxMemoryBytes else 0

end Policy

end ScriptHost
