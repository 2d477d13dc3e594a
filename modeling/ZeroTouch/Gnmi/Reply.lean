import ZeroTouch.Common.Text
/-!
# The gnmi reply

`gnmi_sink.hpp`'s result types and `gnmi_reply.cpp`: a result is rendered
as one line of text and clamped to one SMS.
-/

namespace ZeroTouch

/-- `GnmiPathResult`: one row of a result. -/
structure GnmiPathResult where
  xpath : Text
  value : Text
  error : Text
  deriving DecidableEq, Repr

/-- `GnmiResult`. -/
structure GnmiResult where
  ok : Bool := false
  grpcStatus : Int := -1
  grpcMessage : Text := []
  paths : List GnmiPathResult := []
  deriving DecidableEq, Repr

/-- `kMaxReply`: one GSM-7 SMS. -/
def kMaxReply : ℕ := 160

/-- `clamp_sms`: cut to `max`, with a trailing ellipsis where one fits. -/
def clampSms (s : Text) (max : ℕ := kMaxReply) : Text :=
  if s.length ≤ max then s
  else if max ≤ 3 then s.take max
  else s.take (max - 3) ++ "...".toList

/-- `grpc_status_text`: the canonical name of a status. -/
def grpcStatusText (code : Int) : Text :=
  match code with
  | -1 => "transport error".toList
  | 1 => "cancelled".toList
  | 2 => "unknown".toList
  | 3 => "invalid argument".toList
  | 4 => "deadline exceeded".toList
  | 5 => "not found".toList
  | 6 => "already exists".toList
  | 7 => "permission denied".toList
  | 8 => "resource exhausted".toList
  | 9 => "failed precondition".toList
  | 10 => "aborted".toList
  | 11 => "out of range".toList
  | 12 => "unimplemented".toList
  | 13 => "internal".toList
  | 14 => "unavailable".toList
  | 15 => "data loss".toList
  | 16 => "unauthenticated".toList
  | _ => if code = 0 then "failed".toList else "status ".toList ++ Text.ofInt code

/-- `failure_text`: the server's own message, else the status by name. -/
def failureText (r : GnmiResult) : Text :=
  if r.grpcMessage.isEmpty then grpcStatusText r.grpcStatus else r.grpcMessage

/-- One row of a `GET` reply: the value, or the error in its place. -/
def GnmiPathResult.render (p : GnmiPathResult) : Text :=
  p.xpath ++ "=".toList ++
    (if p.error.isEmpty then p.value else "<".toList ++ p.error ++ ">".toList)

/-- The rows of a `GET` reply, separated: the loop of `format_get` with
its `first` flag. -/
def renderRows : Bool → List GnmiPathResult → Text
  | _, [] => []
  | first, p :: ps =>
    (if first then [] else "; ".toList) ++ p.render ++ renderRows false ps

/-- **`format_get`.** -/
def formatGet (r : GnmiResult) : Text :=
  if !r.ok then clampSms ("ERR GNMI GET ".toList ++ failureText r)
  else clampSms ("OK GNMI GET ".toList ++ renderRows true r.paths)

/-- **`format_set`.** -/
def formatSet (r : GnmiResult) (n : ℕ) : Text :=
  if !r.ok then clampSms ("ERR GNMI SET ".toList ++ failureText r)
  else clampSms ("OK GNMI SET ".toList ++ Text.ofInt n ++ " path(s) updated".toList)

end ZeroTouch
