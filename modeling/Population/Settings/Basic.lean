import Population.Log
import Population.Duration
import Population.Store.Basic
import Population.Store.Remote
import Population.Text.Lower

namespace Population

structure Settings where
  /-- Empty for the default schema. -/
  schemaPath : Text
  logLevel : Text
  logFormat : Text
  store : Text
  dsn : Text
  natsUrl : Text
  natsSubject : Text
  natsTimeout : Duration
  /-- Empty for no metrics. -/
  metricsFile : Text
  deriving DecidableEq, Repr

/-- Values that replace settings; an empty one replaces nothing. -/
structure Overrides where
  schemaPath : Text := []
  logLevel : Text := []
  logFormat : Text := []
  store : Text := []
  dsn : Text := []
  natsUrl : Text := []
  metricsFile : Text := []
  deriving DecidableEq, Repr

inductive SettingError
  | logLevel (value : Text)
  | logFormat (value : Text)
  | store (value : Text)
  | noDsn
  | noUrl
  | timeout (d : Duration)
  deriving DecidableEq, Repr

def SettingError.message : SettingError → Text
  | .logLevel value =>
    "invalid log-level " ++ value.quoted ++ ": must be one of " ++ Text.join ", " (LogLevel.all.map LogLevel.name)
  | .logFormat value => "invalid log-format " ++ value.quoted ++ ": must be 'text' or 'json'"
  | .store value => "invalid backend " ++ value.quoted
  | .noDsn => "the postgres backend needs a dsn"
  | .noUrl => "the nats backend needs a url"
  | .timeout d => "invalid nats timeout " ++ d.toText

namespace Settings

def logFormats : List Text :=
  ["text", "json"]

def defaultTimeout : Duration :=
  .ofSeconds 10

def default : Settings where
  schemaPath := []
  logLevel := LogLevel.name .info
  logFormat := "text"
  store := StoreKind.name .memory
  dsn := []
  natsUrl := []
  natsSubject := RemoteStore.defaultSubject
  natsTimeout := defaultTimeout
  metricsFile := []

def replace (old new : Text) : Text :=
  if new.isEmpty then old else new

/-- Levels, formats and stores are taken in lower case. -/
def apply (s : Settings) (o : Overrides) : Settings :=
  { s with
    schemaPath := replace s.schemaPath o.schemaPath
    logLevel := replace s.logLevel o.logLevel.lower
    logFormat := replace s.logFormat o.logFormat.lower
    store := replace s.store o.store.lower
    dsn := replace s.dsn o.dsn
    natsUrl := replace s.natsUrl o.natsUrl
    metricsFile := replace s.metricsFile o.metricsFile }

def storeErrors (s : Settings) : List SettingError :=
  match StoreKind.ofName? s.store with
  | none => [.store s.store]
  | some .postgres => if s.dsn.isEmpty then [.noDsn] else []
  | some .nats => if s.natsUrl.isEmpty then [.noUrl] else []
  | some .memory => []

def errors (s : Settings) : List SettingError :=
  (if (LogLevel.ofName? s.logLevel).isNone then [.logLevel s.logLevel] else []) ++
    (if s.logFormat ∈ logFormats then [] else [.logFormat s.logFormat]) ++
    s.storeErrors ++
    (if s.natsTimeout.nanoseconds < 0 then [.timeout s.natsTimeout] else [])

def errorMessage (errors : List SettingError) : Text :=
  Text.join "\n" (errors.map SettingError.message)

end Settings

end Population
