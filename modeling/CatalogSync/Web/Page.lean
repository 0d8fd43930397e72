import CatalogSync.Web.Url
import CatalogSync.Feed.Decoder

/-!
# Requests and pages

A request goes to a location and is answered by a page, or fails on the way. `Network.send` says
what comes back from a network that holds given pages.
-/

namespace CatalogSync.Web

open CatalogSync.Text

/-- How the server of a page behaves. -/
inductive Conduct where
  /-- It answers in full. -/
  | sound
  /-- It closes the connection without an answer. -/
  | drops
  /-- It closes the connection before the body is complete. -/
  | breaksOff
  /-- It keeps the connection open before the body is complete. -/
  | hangs
  /-- It never answers. -/
  | silent
deriving DecidableEq, Repr, Inhabited

/-- A page. -/
structure Page where
  status : Nat := 200
  body : List UInt8 := []
  conduct : Conduct := .sound
deriving DecidableEq, Repr, Inhabited

/-- The pages that can be had. -/
structure Network where
  pages : Dict Page := []
  /-- Whether requests get to where they are sent. -/
  reachable : Bool := true
  /-- How often each location was asked for. -/
  hits : Dict Nat := []
deriving Repr, Inhabited

/-- How long a request waits. -/
inductive Patience where
  /-- Until a time is over. -/
  | timed
  /-- Until the request is given up. -/
  | patient
deriving DecidableEq, Repr, Inhabited

/-- What comes back from a request. -/
inductive Reply where
  | answered (status : Nat) (body : Feed.Source)
  /-- The request failed; the texts say why, the outermost first. -/
  | failed (chain : List String)
  /-- Nothing comes back as long as one waits. -/
  | none
  /-- The request was given up. -/
  | cancelled
deriving Repr, Inhabited

/-- The failure over a request for a location that was sent in vain. -/
def sendFailure (u : Url) (why : List String) : List String :=
  ("error sending request for url (" ++ u.text ++ ")") :: why

/-- The location of a request, or why there is no such request. -/
def buildRequest (location : String) : Except (List String) Url :=
  match Url.parse location with
  | .error fault => .error ["builder error", fault.message]
  | .ok u =>
    if u.host.isNone || !(u.scheme = "http" || u.scheme = "https") then
      .error ["builder error for url (" ++ u.text ++ ")", "URL scheme is not allowed"]
    else .ok u

/-- The text over a body that breaks off. -/
def brokenBody : String := "error decoding response body"

/-- The text over a request that took too long. -/
def timedOut : String := "operation timed out"

/-- The network after a request for a location was sent. -/
def Network.count (w : Network) (location : String) : Network :=
  { w with hits := Dict.put w.hits location ((Dict.find? w.hits location).getD 0 + 1) }

/-- Sends a request. A page that is not there is answered by status 404. -/
def Network.send (w : Network) (location : String) (patience : Patience) : Reply × Network :=
  match buildRequest location with
  | .error chain => (.failed chain, w)
  | .ok u =>
    if !w.reachable then (.failed (sendFailure u ["client error (Connect)"]), w)
    else
      let page := (Dict.find? w.pages u.text).getD { status := 404 }
      let reply : Reply := match page.conduct, patience with
        | .sound, _ => .answered page.status ⟨page.body, .closed⟩
        | .drops, _ => .failed (sendFailure u ["connection closed before message completed"])
        | .breaksOff, _ => .answered page.status ⟨page.body, .broken brokenBody⟩
        | .hangs, .timed => .answered page.status ⟨page.body, .broken brokenBody⟩
        | .hangs, .patient => .answered page.status ⟨page.body, .stalled⟩
        | .silent, .timed => .failed (sendFailure u [timedOut])
        | .silent, .patient => .none
      (reply, w.count u.text)

end CatalogSync.Web
