/-
  File:      BoostAsioWebServer/Interface.lean
  Subject:   THE DATA OF `WebServerAdapterInterface`, and what is assumed of code outside this
             repository.

  Request, Reply, the two configurations and the web services come from a package the repository
  depends on. This file holds what the adapter reads and writes of them:

  * a `Request` keeps the SEQUENCE of `addHeader` and `addItem` calls made on it; how the package
    looks a header up in that sequence is a parameter (`External.hasHeader`, `getHeader`);
  * a `Reply` keeps a header map; what `addHeader` does to a name already present is a parameter;
  * `boost::lexical_cast<int>` is a parameter.

  `GetHeaderSpec`, `AddHeaderSpec`, `LexicalCastSpec` name what is documented of them; a theorem
  that relies on one says so.
-/
import BoostAsioWebServer.Lib.ByteText
import BoostAsioWebServer.Lib.SortedMap
import Mathlib.Algebra.Group.Nat.Defs
import Mathlib.Algebra.Ring.Int.Defs

namespace BoostAsioWebServer

open ByteText

/-! ## 1. Requests and replies -/

/-- A request. `headers` and `queryStrings` hold the `addHeader` and `addItem` calls in order; the
    defaults are those of `Request()`. -/
structure Request where
  method : Bytes := []
  uri : Bytes := []
  queryStrings : List (Bytes × Bytes) := []
  httpVersionMajor : UInt32 := 0
  httpVersionMinor : UInt32 := 0
  headers : List (Bytes × Bytes) := []
  content : Bytes := []
  deriving DecidableEq, Repr

/-- The status of a reply; `other` is a value of the enumeration the adapter has no text for. -/
inductive StatusType where
  | ok
  | created
  | accepted
  | noContent
  | multiStatus
  | multipleChoices
  | movedPermanently
  | movedTemporarily
  | notModified
  | badRequest
  | unauthorized
  | forbidden
  | notFound
  | requestTimeout
  | internalServerError
  | notImplemented
  | badGateway
  | serviceUnavailable
  | other (code : Nat)
  deriving DecidableEq, Repr

/-- The header map of a reply, in the order it is iterated. -/
abbrev HeaderMap := SortedMap Bytes Bytes

/-- A reply. -/
structure Reply where
  status : StatusType
  headers : HeaderMap
  content : Bytes

/-- `Reply()` followed by `setStatus`. -/
def Reply.ofStatus (status : StatusType) : Reply := ⟨status, .empty, []⟩

/-- `IWebService::process`: a reply, or none for a request the service does not handle. It returns:
    what comes of an exception out of it, which is caught nowhere, is in `ServerExceptions`. -/
abbrev WebService := Request → Option Reply

/-! ## 2. Configurations -/

/-- The elements of a `std::set<std::string>`, in the order they are iterated. -/
abbrev StringSet := { items : List Bytes // items.Pairwise (· < ·) }

/-- The CORS configuration. -/
structure CORSConfiguration where
  enabled : Bool
  isAllowedOrigin : Bytes → Bool
  exposedHeaders : StringSet
  allowedHeaders : StringSet
  allowedMethods : StringSet
  allowedCredentials : Bool
  maxAge : Int

/-- What `BaseServer` reads of the server's configuration. -/
structure Configuration where
  singleHostAddress : Bool
  hostAddress : Bytes
  port : UInt32
  threadPoolSize : Nat

/-! ## 3. Code outside the repository -/

/-- The functions the adapter calls and this repository does not hold. -/
structure External where
  /-- `boost::lexical_cast<int>`; `none` where it throws `bad_lexical_cast`. -/
  lexicalCast : Bytes → Option Int32
  /-- `RequestHeaders::hasHeader`, on the `addHeader` calls made. -/
  hasHeader : List (Bytes × Bytes) → Bytes → Bool
  /-- `RequestHeaders::getHeader`, on the `addHeader` calls made. -/
  getHeader : List (Bytes × Bytes) → Bytes → Bytes
  /-- `Reply::addHeader`, on the reply's header map. -/
  addHeader : HeaderMap → Bytes → Bytes → HeaderMap

/-- `getHeader` answers with a value that was passed to `addHeader`. -/
def GetHeaderSpec (env : External) : Prop :=
  ∀ calls name, env.hasHeader calls name = true → env.getHeader calls name ∈ calls.map (·.2)

/-- `Reply::addHeader` inserts an absent name; a present one it leaves alone or replaces. -/
structure AddHeaderSpec (env : External) : Prop where
  absent : ∀ m name value, m.contains name = false →
    env.addHeader m name value = m.insert name value
  present : ∀ m name value, m.contains name = true →
    env.addHeader m name value = m ∨ env.addHeader m name value = m.insert name value

/-- The number a text denotes: an optional sign and at least one digit. -/
def signedValue (text : Bytes) : Option Int :=
  let digits (negative : Bool) (ds : Bytes) : Option Int :=
    if ds ≠ [] ∧ ds.all (IsDigit ·) then
      some (if negative then -(decimalValue ds : Int) else decimalValue ds)
    else none
  match text with
  | [] => none
  | b :: ds =>
    if b = chr '-' then digits true ds
    else if b = chr '+' then digits false ds
    else digits false text

/-- The number a text denotes, where it fits a 32-bit `int`. -/
def intOfText (text : Bytes) : Option Int32 :=
  (signedValue text).bind fun n => if -2 ^ 31 ≤ n ∧ n < 2 ^ 31 then some (Int32.ofInt n) else none

/-- `boost::lexical_cast<int>` takes an optional sign followed by decimal digits whose value fits
    a 32-bit `int`, and throws on every other text. -/
def LexicalCastSpec (lexicalCast : Bytes → Option Int32) : Prop :=
  ∀ text, lexicalCast text = intOfText text

/-! ## 4. A reference -/

/-- Functions that behave as documented: the first value of a name, and a map insertion. -/
def External.reference : External where
  lexicalCast := intOfText
  hasHeader calls name := calls.any fun call => call.1 = name
  getHeader calls name := ((calls.find? fun call => call.1 = name).map (·.2)).getD []
  addHeader m name value := m.insert name value

theorem getHeaderSpec_reference : GetHeaderSpec .reference := by
  intro calls name hhas
  obtain ⟨call, hmem, hname⟩ := List.any_eq_true.mp hhas
  show ((calls.find? fun call => call.1 = name).map (·.2)).getD [] ∈ calls.map (·.2)
  cases hf : calls.find? fun call => decide (call.1 = name) with
  | none => exact absurd hname (List.find?_eq_none.mp hf call hmem)
  | some found => exact List.mem_map_of_mem (List.mem_of_find?_eq_some hf)

theorem addHeaderSpec_reference : AddHeaderSpec .reference where
  absent _ _ _ _ := rfl
  present _ _ _ _ := Or.inr rfl

/-- CORS switched off. -/
def CORSConfiguration.off : CORSConfiguration where
  enabled := false
  isAllowedOrigin _ := false
  exposedHeaders := ⟨[], .nil⟩
  allowedHeaders := ⟨[], .nil⟩
  allowedMethods := ⟨[], .nil⟩
  allowedCredentials := false
  maxAge := 0

end BoostAsioWebServer
