import CodeGraph.Address
import CodeGraph.Settings
import CodeGraph.Store.Call

/-!
# Addresses of servers

A server is given by an address such as `bolt://localhost:7687`. An address without a host is taken for
a host. Only some schemes are known, and where a server has to prove its name, that has to be a name
that can be proved.

* `Settings.Server.address`: the address that settings stand for;
* `Bolt.checkAddress`: refuses what is no address of a server.
-/

namespace CodeGraph

/-- The address of the server. -/
def Settings.Server.address (s : Settings.Server) : String :=
  s.address?.getD ("bolt://" ++ s.host ++ ":" ++ String.ofList (Text.showNat s.tcpPort))

namespace Bolt

/-- The schemes of servers, and whether a server has to prove its name. -/
def schemes : List (List Char × Bool) :=
  [("bolt".toList, false), ("bolt+s".toList, true), ("bolt+ssc".toList, true),
    ("neo4j".toList, false), ("neo4j+s".toList, true), ("neo4j+ssc".toList, true)]

/-- The address that a text spells. A text without a scheme or without a host is the rest of one. -/
def readAddress (cs : List Char) : Except Address.Fault Address :=
  match Address.read cs with
  | .ok a => if a.host?.isSome then .ok a else Address.read ("bolt://".toList ++ cs)
  | .error .noScheme => Address.read ("bolt://".toList ++ cs)
  | .error f => .error f

/-- What is wrong with an address of a server, if anything is. -/
def addressProblem? (cs : List Char) : Option String :=
  match readAddress cs with
  | .error f => some ("Invalid URI: " ++ f.message)
  | .ok a =>
    match schemes.lookup a.scheme, a.host? with
    | none, _ => some ("Unsupported URI scheme: " ++ String.ofList a.scheme)
    | some true, some (.name n) =>
      if Address.isServerName n then none else some ("Invalid DNS name: " ++ String.ofList n)
    | some _, _ => none

/-- Refuses what is no address of a server. -/
def checkAddress (address : String) : Except StoreError Unit :=
  match addressProblem? address.toList with
  | some problem => .error (.connection problem)
  | none => .ok ()

end Bolt

end CodeGraph
