import WaOps.Lib.JsonSchema

namespace WaOps.Contracts
open Lib Lib.JsonSchema

def timestamp : Schema := all [type .string, dateTime]

end WaOps.Contracts
