import RespClient.Shell.Flags
import RespClient.Settings.Document

namespace RespClient.Shell

structure Settings where
  mode : Mode := .direct
  host : String := "127.0.0.1"
  port : Nat := 6379
  connection : ConnectionSettings := {}
  cluster : ClusterSettings := {}
  sentinel : SentinelSettings := {}
  logLevel : String := "info,ferrule_client=warn"

def Settings.read : Document.Reader Settings := fun d => do
  d.fits 7
  let base : Settings := {}
  return { mode := ← d.field 0 "mode" (Document.named Mode.ofName?) base.mode
           host := ← d.field 1 "host" Document.string base.host
           port := ← d.field 2 "port" (Document.word 16) base.port
           connection := ← d.field 3 "connection" ConnectionSettings.read base.connection
           cluster := ← d.field 4 "cluster" ClusterSettings.read base.cluster
           sentinel := ← d.field 5 "sentinel" SentinelSettings.read base.sentinel
           logLevel := ← d.field 6 "log_level" Document.string base.logLevel }

/-- The mode that the addresses given on the command line ask for; sentinels win over seeds. -/
def Flags.impliedMode? (f : Flags) : Option Mode :=
  if !f.sentinels.isEmpty then some .sentinel
  else if !f.seeds.isEmpty then some .cluster
  else none

/-- Flags override the settings; a mode that is named wins over the one that addresses imply. -/
def Settings.apply (s : Settings) (f : Flags) : Settings :=
  { s with
    mode := (f.mode <|> f.impliedMode?).getD s.mode
    host := f.host.getD s.host
    port := f.port.getD s.port
    cluster := { s.cluster with
      seeds := if f.seeds.isEmpty then s.cluster.seeds else f.seeds
      replicas := f.replicas.getD s.cluster.replicas }
    sentinel := { s.sentinel with
      endpoints := if f.sentinels.isEmpty then s.sentinel.endpoints else f.sentinels
      masterName := f.masterName.getD s.sentinel.masterName
      role := f.role.getD s.sentinel.role } }

end RespClient.Shell
