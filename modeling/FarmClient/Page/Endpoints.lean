/-
The addresses a page fetches from and connects to, from the address it was
loaded from itself.
-/

namespace FarmClient.Page

structure Endpoints where
  bootstrap : String
  /-- The channel on which scripts run. -/
  channel : String
deriving DecidableEq

/-- The endpoints of a page with that protocol and host in its address. -/
def Endpoints.ofLocation (protocol host : String) : Endpoints where
  bootstrap := "/api/bootstrap"
  channel := (if protocol = "https:" then "wss" else "ws") ++ "://" ++ host ++ "/ws/run"

end FarmClient.Page
