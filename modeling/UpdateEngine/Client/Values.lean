import UpdateEngine.Ipc.Types

/-!
# Values of a script, and NapiUtil

What a script hands over and is handed, as the script engine shows it: a property that is read is the one an object has under that name,
and a number is known by the integer that is left when its fraction is cut off. `NapiUtil` reads a member only where the property is
there and of the type asked for; otherwise the variable it is given keeps what it holds. The calls of the engine that make a value are
taken to succeed.
-/

namespace UpdateEngine.Ipc.Client

/-- A value of a script. A function is known by its identity. -/
inductive Value where
  | undefined
  | null
  | boolean (b : Bool)
  | number (n : Int)
  | string (s : String)
  | function (id : Nat)
  | array (l : List Value)
  | object (l : List (String × Value))

/-- `ClientStatus`. -/
inductive ClientStatus where
  | CLIENT_SUCCESS | CLIENT_INVALID_PARAM | CLIENT_INVALID_TYPE | CLIENT_REPEAT_REQ | CLIENT_FAIL | CLIENT_CHECK_NEW_FIRST
  deriving DecidableEq, Repr

namespace Value

/-- `napi_has_named_property` and `napi_get_named_property`. -/
def property (arg : Value) (attrName : String) : Option Value :=
  match arg with
  | .object l => l.lookup attrName
  | _ => none

/-- `napi_typeof` is `napi_object`. -/
def isObject : Value → Bool
  | .array _ | .object _ => true
  | _ => false

/-- The elements, when `napi_is_array` says it is one. -/
def elements : Value → Option (List Value)
  | .array l => some l
  | _ => none

/-- `napi_get_value_int32`: a number is brought into the range. -/
def int32 (v : Value) (intValue : Int32) : Int32 :=
  match v with
  | .number n => Int32.ofInt n
  | _ => intValue

/-- `napi_get_value_uint32`. -/
def uint32 (v : Value) (intValue : UInt32) : UInt32 :=
  match v with
  | .number n => UInt32.ofInt n
  | _ => intValue

/-- `napi_get_value_bool`. -/
def bool (v : Value) (value : Bool) : Bool :=
  match v with
  | .boolean b => b
  | _ => value

end Value

/-- The characters that fit into so many bytes. -/
def fitting : Nat → List Char → List Char
  | _, [] => []
  | n, c :: l => if c.utf8Size ≤ n then c :: fitting (n - c.utf8Size) l else []

/-- What `c_str` of a string is taken for: it ends at the first null character. -/
def cStr (s : String) : String := String.ofList (s.toList.takeWhile fun c => c ≠ '\x00')

namespace NapiUtil

def STRING_MAX_LENGTH : Nat := 200

/-- `napi_get_value_string_utf8` with a buffer of `STRING_MAX_LENGTH` bytes, one of which is for the end. -/
def copied (s : String) : String := String.ofList (fitting (STRING_MAX_LENGTH - 1) s.toList)

/-- `GetInt32`. -/
def getInt32 (arg : Value) (attrName : String) (intValue : Int32) : Int32 :=
  match arg.property attrName with
  | some value => value.int32 intValue
  | none => intValue

/-- `GetBool`. -/
def getBool (arg : Value) (attrName : String) (value : Bool) : Bool :=
  match arg.property attrName with
  | some obj => obj.bool value
  | none => value

/-- `GetString`, of a value. -/
def getStringValue (arg : Value) (strValue : String) : ClientStatus × String :=
  match arg with
  | .string s => (.CLIENT_SUCCESS, copied s)
  | _ => (.CLIENT_INVALID_TYPE, strValue)

/-- `GetString`, of a property. -/
def getString (arg : Value) (attrName : String) (strValue : String) : ClientStatus × String :=
  match arg.property attrName with
  | some value => getStringValue value strValue
  | none => (.CLIENT_SUCCESS, strValue)

/-- `IsTypeOf`, of a function. -/
def isFunction : Value → Bool
  | .function _ => true
  | _ => false

/-- The properties of an object, in the order they were set. -/
abbrev Properties := List (String × Value)

/-- `SetString`. -/
def setString (obj : Properties) (attrName string : String) : Properties := obj ++ [(attrName, .string string)]

/-- `SetInt32`. -/
def setInt32 (obj : Properties) (attrName : String) (intValue : Int32) : Properties := obj ++ [(attrName, .number intValue.toInt)]

/-- `SetBool`, which makes a number. -/
def setBool (obj : Properties) (attrName : String) (value : Bool) : Properties := obj ++ [(attrName, .number (if value then 1 else 0))]

/-- `napi_set_named_property`. -/
def setNamedProperty (obj : Properties) (attrName : String) (value : Value) : Properties := obj ++ [(attrName, value)]

end NapiUtil

end UpdateEngine.Ipc.Client
