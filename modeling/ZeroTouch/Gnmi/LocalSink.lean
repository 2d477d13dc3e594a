import ZeroTouch.Gnmi.Message
import ZeroTouch.Gnmi.PathPolicy
import ZeroTouch.Gnmi.Reply
/-!
# The local gNMI sink

`LocalGnmiSink` of `local_gnmi_sink.cpp`: a read is screened against the
denylist on both legs, and a result row is an error where a path is
denied and the rendered value where it is not. The helpers it borrows
from grace-server, and the unary call to the server, are parameters.
-/

namespace ZeroTouch

/-- grace-server's `gnmi_util`. -/
structure GnmiUtil where
  parseYangPath : Text → GnmiPath
  pathToString : GnmiPath → Text
  typedValueToString : TypedValue → Text
  setTypedValue : Text → TypedValue

/-- `gnmi_client::response`: the status, the server's message, and the
body where it parses. -/
structure RpcResponse (β : Type) where
  grpcStatus : Int
  grpcMessage : Text
  body : Option β

/-- `LocalGnmiSink::Config`. The port and the host select the server, which
is a parameter here. -/
structure LocalSinkConfig where
  getRole : Text := "VIEWER".toList
  setRole : Text := "ADMIN".toList
  denyTokens : List Text := []

/-- The tokens in force: the configured ones, or the defaults where none
are configured. -/
def LocalSinkConfig.deny (cfg : LocalSinkConfig) : List Text :=
  if cfg.denyTokens.isEmpty then defaultDenyTokens else cfg.denyTokens

/-- The row a denied path gets. -/
def deniedRow (xpath : Text) : GnmiPathResult :=
  ⟨xpath, [], "sensitive path denied".toList⟩

namespace LocalGnmiSink

variable (G : GnmiUtil) (cfg : LocalSinkConfig)

/-- The requested paths that are sent. -/
def asked (xpaths : List Text) : List Text :=
  xpaths.filter fun xp => !isSensitivePath xp cfg.deny

/-- The rows recorded for the requested paths that are not. -/
def deniedRows (xpaths : List Text) : List GnmiPathResult :=
  (xpaths.filter fun xp => isSensitivePath xp cfg.deny).map deniedRow

/-- The row of one returned update, re-checked on the way out. -/
def updateRow (u : GnmiUpdate) : GnmiPathResult :=
  let xp := G.pathToString u.path
  if isSensitivePath xp cfg.deny then deniedRow xp
  else ⟨xp, G.typedValueToString u.val, []⟩

/-- The rows of a response, notification by notification. -/
def responseRows (resp : GetResponse) : List GnmiPathResult :=
  resp.notification.flatMap fun n => n.update.map (updateRow G cfg)

/-- **`LocalGnmiSink::get`.** -/
def get (call : GetRequest → RpcResponse GetResponse) (xpaths : List Text) : GnmiResult :=
  let denied := deniedRows cfg xpaths
  let asked := asked cfg xpaths
  if asked.isEmpty then
    { ok := !denied.isEmpty, grpcStatus := 0, paths := denied }
  else
    let r := call ⟨cfg.getRole, asked.map G.parseYangPath⟩
    if r.grpcStatus ≠ 0 then
      { grpcStatus := r.grpcStatus, grpcMessage := r.grpcMessage, paths := denied }
    else
      match r.body with
      | none =>
        { grpcStatus := 0, grpcMessage := "response parse failed".toList, paths := denied }
      | some resp =>
        { ok := true, grpcStatus := 0, grpcMessage := r.grpcMessage,
          paths := denied ++ responseRows G cfg resp }

/-- The request of a `set`: one update for each pair, in order. -/
def setRequest (updates : List (Text × Text)) : SetRequest where
  target := cfg.setRole
  update := updates.map fun p => ⟨G.parseYangPath p.1, G.setTypedValue p.2⟩

/-- **`LocalGnmiSink::set`.** -/
def set (call : SetRequest → RpcResponse SetResponse) (updates : List (Text × Text)) :
    GnmiResult :=
  let r := call (setRequest G cfg updates)
  if r.grpcStatus ≠ 0 then { grpcStatus := r.grpcStatus, grpcMessage := r.grpcMessage }
  else
    match r.body with
    | none => { grpcStatus := 0, grpcMessage := "response parse failed".toList }
    | some resp =>
      { ok := true, grpcStatus := 0, grpcMessage := r.grpcMessage,
        paths := resp.response.map fun p => ⟨G.pathToString p, [], []⟩ }

end LocalGnmiSink

end ZeroTouch
