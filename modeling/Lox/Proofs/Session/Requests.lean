import Lox.Session

/-!
Contract: what happens to a session over time.

Owns: requests to parse and to run units, the responses to them, and how a session serves
one request after another.
-/

namespace Lox

/-- What a session may be asked to do. -/
inductive Request where
  | parse (source : String)
  | run (fuel : Nat) (source : String)

/-- The source text of a request. -/
def Request.source : Request → String
  | .parse source | .run _ source => source

/-- What a session says about a request. -/
inductive Response where
  | parsed (result : Except (List StaticError) (List Statement))
  | ended (outcome : Outcome)

namespace Session

/-- Do what is asked for. -/
def serve (session : Session) : Request → Response × Session
  | .parse source =>
      let (result, session) := session.parse source
      (.parsed result, session)
  | .run fuel source =>
      let (outcome, session) := session.run fuel source
      (.ended outcome, session)

/-- Serve requests in order. -/
def serveAll (session : Session) : List Request → List Response × Session
  | [] => ([], session)
  | request :: rest =>
      let (response, session) := session.serve request
      let (responses, session) := session.serveAll rest
      (response :: responses, session)

end Session

end Lox
