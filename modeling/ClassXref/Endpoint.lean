import ClassXref.Url.Reader

/-! The address that traces are sent to. A collector is often given by its root or by the address of
its log receiver; both stand for the trace receiver beside them. -/
namespace ClassXref.Endpoint

def tracesPath : List Char := "/v1/traces".toList

def logsPath : List Char := "/v1/logs".toList

/-- The path of the trace receiver that a path stands for. -/
def tracePath (path : List Char) : List Char :=
  if path = ['/'] then tracesPath
  else if logsPath.isSuffixOf path then path.take (path.length - logsPath.length) ++ tracesPath
  else path

/-- The written form of the trace receiver's address. -/
def normalize (text : String) : Except Url.Flaw String :=
  (Url.parse text).map fun url => { url with path := tracePath url.path }.render

/-- The wording of a refusal. -/
def message (flaw : Url.Flaw) : String := "parse OTLP endpoint: " ++ flaw.message

end ClassXref.Endpoint
