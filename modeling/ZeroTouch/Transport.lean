import ZeroTouch.Common.Text
/-!
# The transport seam

What a transport hands to the bridge, whichever transport it is.
-/

namespace ZeroTouch

/-- `InboundSms`: one inbound SMS, already reassembled from its parts. -/
structure InboundSms where
  sender : Text
  text : Text
  ts : Text
  deriving DecidableEq, Repr

end ZeroTouch
