import Mathlib.Logic.Function.Basic
import Mathlib.Algebra.Ring.Int.Defs
import Mathlib.Algebra.Ring.Nat
import LeptosMusic.Library.ByteStrings
import LeptosMusic.Library.Base64

/-!
# The Foundation types the app passes around

Strings are sequences of UTF-16 units and data objects sequences of bytes. Lengths are
`NSUInteger`s; where the source subtracts them and reads the result as an `NSInteger`,
the model wraps at 64 bits. A method that can raise, or read outside a C buffer,
returns `Except Fault`.
-/
namespace LeptosMusic

/-- The UTF-16 units of a string. -/
abbrev NSString := List UInt16

/-- The bytes of a data object. -/
abbrev NSData := List UInt8

/-- The contents of an object that exists: the address space holds fewer than `2 ^ 62`
elements, so no length comes near `NSIntegerMax`. -/
abbrev Stored (α : Type) := { contents : List α // contents.length < 2 ^ 62 }

theorem stored_nil {α : Type} : ([] : List α).length < 2 ^ 62 := by
  rw [List.length_nil]
  omega

/-- The string of an ASCII literal of the source. -/
def literal (text : String) : NSString := text.toList.map fun c => UInt16.ofNat c.toNat

inductive Fault where
  | rangeException
  | invalidArgumentException
  /-- A selector the receiver does not respond to. -/
  | unrecognizedSelector
  /-- A read through `NULL` or outside a C buffer. -/
  | badAccess
  /-- A collection that was mutated while it was being enumerated. -/
  | genericException
  deriving DecidableEq, Repr

@[simp] theorem ok_bind {α β : Type} (a : α) (f : α → Except Fault β) :
    (Except.ok a >>= f) = f a := rfl

@[simp] theorem error_bind {α β : Type} (fault : Fault) (f : α → Except Fault β) :
    (Except.error fault >>= f) = .error fault := rfl

@[simp] theorem pure_eq_ok {α : Type} (a : α) : (pure a : Except Fault α) = .ok a := rfl

theorem bind_eq_ok {α β : Type} {f : α → Except Fault β} {x : Except Fault α} {b : β}
    (bound : (x >>= f) = .ok b) : ∃ a, x = .ok a ∧ f a = .ok b := by
  cases x with
  | error fault => cases bound
  | ok a => exact ⟨a, rfl, bound⟩

theorem map_eq_ok {α β : Type} {f : α → β} {x : Except Fault α} {b : β} (mapped : x.map f = .ok b) :
    ∃ a, x = .ok a ∧ f a = b := by
  cases x with
  | error fault => cases mapped
  | ok a =>
      cases mapped
      exact ⟨a, rfl, rfl⟩

/-- `userInfo` is split into its texts and the object under `NSUnderlyingErrorKey`. -/
structure NSError where
  domain : String
  code : Int
  userInfo : List (String × String)
  underlying : Option NSError := none

/-- An `NSError **` argument: `NULL`, or a variable with its present value. -/
abbrev ErrorPointer := Option (Option NSError)

/-- `if (error) *error = e` -/
def ErrorPointer.set (pointer : ErrorPointer) (e : NSError) : ErrorPointer :=
  pointer.map fun _ => some e

/-- An unsigned 64-bit result. -/
def nsUInteger (n : Int) : Nat := (n % 2 ^ 64).toNat

/-- An unsigned 64-bit result read as a signed one. -/
def nsInteger (n : Int) : Int := n.bmod (2 ^ 64)

theorem nsInteger_eq {n : Int} (low : -2 ^ 63 ≤ n) (high : n < 2 ^ 63) : nsInteger n = n := by
  unfold nsInteger
  apply Int.bmod_eq_of_le <;> omega

/-- `stringByPaddingToLength:withString:startingAtIndex:` with a one-unit pad string. -/
def stringByPadding (string : NSString) (length : Nat) (unit : UInt16) : NSString :=
  string.take length ++ List.replicate (length - string.length) unit

theorem stringByPadding_extend (string : NSString) (n : Nat) (unit : UInt16) :
    stringByPadding string (string.length + n) unit = string ++ List.replicate n unit := by
  rw [stringByPadding, List.take_of_length_le (Nat.le_add_right _ _), Nat.add_sub_cancel_left]

/-- `stringByTrimmingCharactersInSet:` with a one-unit set. -/
def stringByTrimming (string : NSString) (unit : UInt16) : NSString :=
  ((string.dropWhile (· == unit)).reverse.dropWhile (· == unit)).reverse

/-- `subdataWithRange:NSMakeRange(location, length)` -/
def subdataWithRange (data : NSData) (location length : Nat) : Except Fault NSData :=
  if location + length ≤ data.length then .ok (ByteStrings.slice location length data)
  else .error .rangeException

theorem subdataWithRange_ok {data : NSData} {location length : Nat}
    (h : location + length ≤ data.length) :
    subdataWithRange data location length = .ok (ByteStrings.slice location length data) :=
  if_pos h

/-- `dataWithLength:` -/
def dataWithLength (length : Nat) : NSData := List.replicate length 0

/-- `dataWithBytes:buffer length:length`, for what memory holds from the buffer on. -/
def dataWithBytes (buffer : List UInt8) (length : Nat) : Except Fault NSData :=
  if length ≤ buffer.length then .ok (buffer.take length) else .error .badAccess

theorem dataWithBytes_ok {buffer : List UInt8} {length : Nat} (h : length ≤ buffer.length) :
    dataWithBytes buffer length = .ok (buffer.take length) := if_pos h

/-- What stands behind the buffer is not reached. -/
theorem dataWithBytes_front {buffer : List UInt8} {length : Nat} (h : length ≤ buffer.length)
    (behind : List UInt8) : dataWithBytes (buffer ++ behind) length = .ok (buffer.take length) := by
  rw [dataWithBytes_ok (by rw [List.length_append]; omega), List.take_append_of_le_length h]

/-- The URL is kept as the UTF-8 bytes of its `absoluteString`. -/
structure NSMutableURLRequest where
  url : NSData
  httpMethod : String
  httpBody : Option NSData
  headers : String → Option NSString

def NSMutableURLRequest.setValue (request : NSMutableURLRequest) (value : NSString)
    (field : String) : NSMutableURLRequest :=
  { request with headers := Function.update request.headers field (some value) }

@[simp] theorem NSMutableURLRequest.setValue_same (request : NSMutableURLRequest)
    (value : NSString) (field : String) :
    (request.setValue value field).headers field = some value := by
  simp [setValue]

theorem NSMutableURLRequest.setValue_other (request : NSMutableURLRequest)
    (value : NSString) {field other : String} (h : other ≠ field) :
    (request.setValue value field).headers other = request.headers other := by
  simp [setValue, h]

/-- A value in a dictionary of a reply; `true` and `false` are numbers, and numbers are whole, like
the seconds that they stand for here. Nested dictionaries and arrays are left out: where a handler
sends the value a message they raise as `null` does, and where it only keeps or prints the value
they do as a string does, except that the defaults give no string back for them. -/
inductive JSONValue where
  | string (text : NSString)
  | number (value : Int)
  | null
  deriving DecidableEq, Repr

abbrev JSONObject := String → Option JSONValue

/-- A reply to a network task: an error without data, data that `NSJSONSerialization` refuses
with an error, or an array or a dictionary. -/
inductive URLReply where
  | failed (error : NSError)
  | notJSON (error : NSError)
  | array
  | object (jsonResponse : JSONObject)

/-- What `%@` prints for a value. -/
def JSONValue.description : JSONValue → NSString
  | .string text => text
  | .number value => literal (toString value)
  | .null => literal "<null>"

/-- A value that is sent `NSString` methods. -/
def stringValue : Option JSONValue → Except Fault (Option NSString)
  | none => .ok none
  | some (.string text) => .ok (some text)
  | some _ => .error .unrecognizedSelector

inductive DefaultsObject where
  | data (bytes : NSData)
  | string (text : NSString)
  deriving DecidableEq, Repr

abbrev NSUserDefaults := String → Option DefaultsObject

namespace NSUserDefaults

def dataForKey (defaults : NSUserDefaults) (key : String) : Option NSData :=
  match defaults key with
  | some (.data bytes) => some bytes
  | _ => none

def stringForKey (defaults : NSUserDefaults) (key : String) : Option NSString :=
  match defaults key with
  | some (.string text) => some text
  | _ => none

/-- `setObject:forKey:`; `nil` removes the key. -/
def setObject (defaults : NSUserDefaults) (object : Option DefaultsObject) (key : String) :
    NSUserDefaults := Function.update defaults key object

@[simp] theorem setObject_same (defaults : NSUserDefaults) (object : Option DefaultsObject)
    (key : String) : defaults.setObject object key key = object := by
  simp [setObject]

theorem setObject_other (defaults : NSUserDefaults) (object : Option DefaultsObject)
    {key other : String} (h : other ≠ key) :
    defaults.setObject object key other = defaults other := by
  simp [setObject, h]

end NSUserDefaults

end LeptosMusic
