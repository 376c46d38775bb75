/-!
# Log entries
-/

namespace OnlineFeatures

/-- How urgent a log entry is. -/
inductive LogLevel where
  | debug
  | info
  | warning
  | error
  deriving DecidableEq, Repr

def LogLevel.name : LogLevel → String
  | debug => "DEBUG"
  | info => "INFO"
  | warning => "WARNING"
  | error => "ERROR"

/-- The parts of the program that write log entries. -/
inductive Logger where
  | channel
  | client
  | metrics
  | commandLine
  deriving DecidableEq, Repr

/-- The name of a part in the log. -/
def Logger.name : Logger → String
  | channel => "feast_serving.client.channel"
  | client => "feast_serving.client.feast_client"
  | metrics => "feast_serving.monitoring.metrics"
  | commandLine => "feast_serving.cli"

structure LogEntry where
  level : LogLevel
  logger : Logger
  text : String
  deriving DecidableEq, Repr

namespace LogEntry

/-- The line of an entry, without the time. -/
def line (e : LogEntry) : String := e.level.name ++ " " ++ e.logger.name ++ ": " ++ e.text

/-- Whether an entry is written when debugging output is not asked for. -/
def isUsual (e : LogEntry) : Bool := e.level ≠ .debug

end LogEntry

end OnlineFeatures
