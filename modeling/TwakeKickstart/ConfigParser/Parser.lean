import TwakeKickstart.Library.Heap
import TwakeKickstart.Library.JsonText
import TwakeKickstart.Library.Regex

namespace TwakeKickstart.ConfigParser

open Library

/-! The new parser of the configuration, with the objects it works on. -/

/-- A value of a configuration.  A number is kept as the numeral it was read
from. -/
inductive Value where
  | null
  | bool (b : Bool)
  | num (numeral : String)
  | str (s : String)
  | arr (items : List Value)
  | obj (fields : List (String × Value))

def Value.isNull : Value → Bool
  | .null => true
  | _ => false

inductive ConfigValueType where
  | string
  | number
  | boolean
  | array
  | object
  | json
  deriving DecidableEq

/-- The default is missing where it is `undefined`. -/
structure ConfigProperty where
  type : ConfigValueType
  default : Option Value
  required : Option Bool

structure NewConfigDescription where
  entries : List (String × ConfigProperty)
  distinct : (entries.map Prod.fst).Nodup

/-- An object is given as what `JSON.stringify` keeps of it. -/
inductive ConfigurationFile where
  | path (filePath : String)
  | object (fields : List (String × Value))

/-- What a lookup finds; `inherited` is a member of a built-in prototype. -/
inductive Read where
  | undefined
  | inherited
  | value (value : Value)

/-- The process and the functions of the language that are not modelled. -/
structure Host where
  env : String → Option String
  /-- `JSON.parse(fs.readFileSync(filePath, 'utf8'))` -/
  readFile : String → Except String (List (String × Value))
  parseJson : String → Except String Value
  toUpperCase : String → String
  toLowerCase : String → String
  /-- A lookup that falls through to an array. -/
  arrayMember : List Value → String → Read

/-! Errors. -/

inductive FormatError where
  | invalidNumber (value : String)
  | invalidBoolean (value : String)
  | invalidJson (value cause : String)

def FormatError.message : FormatError → String
  | .invalidNumber value => "Invalid number format for value: '" ++ value ++ "'"
  | .invalidBoolean value =>
      "Invalid boolean format for value: '" ++ value ++
        "'. Expected 'true', 'false', '1', or '0'."
  | .invalidJson value cause =>
      "Invalid JSON format for value: '" ++ value ++ "'. Error: " ++ cause

inductive CoercionSource where
  | environment
  | default

inductive ConfigError where
  | fileReadParse (filePath cause : String)
  | unacceptedKey (key : String)
  | coercion (key : String) (source : CoercionSource) (cause : String)
  | missingRequiredConfig (key : String)
  | typeError (message : String)

def ConfigError.message (host : Host) : ConfigError → String
  | .fileReadParse filePath cause =>
      "Failed to read or parse configuration file '" ++ filePath ++ "': " ++
        cause
  | .unacceptedKey key =>
      "Configuration key '" ++ key ++
        "' isn't accepted as it's not defined in the ConfigDescription."
  | .coercion key .environment cause =>
      "Configuration error for '" ++ key ++ "' from environment variable '" ++
        host.toUpperCase key ++ "': " ++ cause
  | .coercion key .default cause =>
      "Configuration error for '" ++ key ++ "' for default value of '" ++
        key ++ "': " ++ cause
  | .missingRequiredConfig key =>
      "Required configuration key '" ++ key ++ "' is missing."
  | .typeError message => message

/-! Objects. -/

/-- The members of `Object.prototype`; none of them is nullish. -/
def objectPrototype : List String :=
  ["constructor", "__defineGetter__", "__defineSetter__", "hasOwnProperty",
    "__lookupGetter__", "__lookupSetter__", "isPrototypeOf",
    "propertyIsEnumerable", "toString", "valueOf", "__proto__",
    "toLocaleString"]

/-- The prototype of a configuration: `Object.prototype`, or what an
assignment to `__proto__` has put in its place. -/
inductive Prototype where
  | object
  | null
  | fields (fields : List (String × Value))
  | items (items : List Value)

structure Configuration where
  own : List (String × Value)
  prototype : Prototype

def objectMember (key : String) : Read :=
  if key ∈ objectPrototype then .inherited else .undefined

/-- The read `config[key]`. -/
def Configuration.get (host : Host) (config : Configuration) (key : String) :
    Read :=
  match config.own.lookup key with
  | some value => .value value
  | none =>
      match config.prototype with
      | .object => objectMember key
      | .null => .undefined
      | .fields others =>
          match others.lookup key with
          | some value => .value value
          | none => objectMember key
      | .items values => host.arrayMember values key

/-- The prototype that the accessor of `__proto__` takes; a primitive value is
ignored. -/
def Prototype.ofValue : Value → Option Prototype
  | .null => some .null
  | .arr values => some (.items values)
  | .obj others => some (.fields others)
  | _ => none

/-- The accessor of `__proto__` is inherited. -/
def Prototype.hasAccessor : Prototype → Bool
  | .object => true
  | .null => false
  | .fields others => (others.lookup "__proto__").isNone
  | .items _ => true

/-- The assignment `config[key] = value`. -/
def Configuration.assign (config : Configuration) (key : String)
    (value : Value) : Configuration :=
  if key = "__proto__" ∧ config.own.lookup key = none ∧
      config.prototype.hasAccessor = true then
    { config with
      prototype := (Prototype.ofValue value).getD config.prototype }
  else { config with own := Fields.put config.own key value }

def Read.isNullish : Read → Bool
  | .undefined => true
  | .inherited => false
  | .value found => found.isNull

def Read.isUndefined : Read → Bool
  | .undefined => true
  | _ => false

/-- `desc[key] !== undefined` -/
def NewConfigDescription.has (desc : NewConfigDescription) (key : String) :
    Bool :=
  (desc.entries.map Prod.fst).contains key || objectPrototype.contains key

/-! Coercion. -/

def digits : Regex := .some1 Char.isDigit

def sign : Regex := .optional (.one fun c => c == '+' || c == '-')

def exponentPart : Regex :=
  .optional (.sequence [.one fun c => c == 'e' || c == 'E', sign, digits])

/-- The grammar of decimal numerals of the language. -/
def strDecimalLiteral : Regex :=
  .seq sign (.anyOf
    [.literals "Infinity",
      .sequence [digits,
        .optional (.seq (.literal '.') (.many Char.isDigit)), exponentPart],
      .sequence [.literal '.', digits, exponentPart]])

/-- The numeral that `parseFloat` reads: the longest prefix after the white
space that is one.  There is none where the result is `NaN`. -/
def parseFloat (text : String) : Option String :=
  ((text.toList.dropWhile isSpaceChar).inits.reverse.find?
    strDecimalLiteral.acceptsList).map String.ofList

def trim (text : String) : String :=
  String.ofList ((text.toList.dropWhile isSpaceChar).reverse.dropWhile
    isSpaceChar).reverse

/-- `value.split(/[,\s]+/).filter((s) => s.length > 0)` -/
def splitItems (text : String) : List String :=
  ((text.toList.splitOnP fun c => c == ',' || isSpaceChar c).filter
    (· ≠ [])).map String.ofList

def coerceValue (host : Host) (value : String) :
    ConfigValueType → Except FormatError Value
  | .number =>
      match parseFloat value with
      | none => .error (.invalidNumber value)
      | some num => .ok (.num num)
  | .boolean =>
      let lowerValue := trim (host.toLowerCase value)
      if lowerValue = "true" ∨ lowerValue = "1" then .ok (.bool true)
      else if lowerValue = "false" ∨ lowerValue = "0" then .ok (.bool false)
      else .error (.invalidBoolean value)
  | .array => .ok (.arr ((splitItems value).map .str))
  | .json | .object =>
      match host.parseJson value with
      | .ok parsed => .ok parsed
      | .error cause => .error (.invalidJson value cause)
  | .string => .ok (.str value)

/-! The sources. -/

def loadConfigFromFile (host : Host) (filePath : String) :
    Except ConfigError Configuration :=
  match host.readFile filePath with
  | .ok fields => .ok { own := fields, prototype := .object }
  | .error cause => .error (.fileReadParse filePath cause)

def initialConfig (host : Host) :
    Option ConfigurationFile → Except ConfigError Configuration
  | none => .ok { own := [], prototype := .object }
  | some (.path filePath) => loadConfigFromFile host filePath
  | some (.object fields) => .ok { own := fields, prototype := .object }

def emptyVariable : String :=
  "Empty string values are not allowed for this configuration key from " ++
    "environment variables."

def applyEnvironmentVariable (host : Host) (useEnv : Bool)
    (config : Configuration) (entry : String × ConfigProperty) :
    Except ConfigError Configuration :=
  let (key, configProp) := entry
  if useEnv = true then
    -- A variable of this name hides the method that is called.
    if (host.env "hasOwnProperty").isSome then
      .error (.typeError "process.env.hasOwnProperty is not a function")
    else
      match host.env (host.toUpperCase key) with
      | none => .ok config
      | some envValue =>
          if envValue = "" then
            .error (.coercion key .environment emptyVariable)
          else
            match coerceValue host envValue configProp.type with
            | .ok value => .ok (config.assign key value)
            | .error error =>
                .error (.coercion key .environment error.message)
  else .ok config

def applyEnvironmentVariables (host : Host) (config : Configuration)
    (desc : NewConfigDescription) (useEnv : Bool) :
    Except ConfigError Configuration :=
  desc.entries.foldlM (applyEnvironmentVariable host useEnv) config

/-- The default, which is coerced where it is a string. -/
def ConfigProperty.coerced (host : Host) (configProp : ConfigProperty) :
    Value → Except FormatError Value
  | .str text =>
      if configProp.type ≠ .string ∧ configProp.type ≠ .array then
        coerceValue host text configProp.type
      else if configProp.type = .array then
        coerceValue host text configProp.type
      else .ok (.str text)
  | value => .ok value

def applyDefaultValue (host : Host) (config : Configuration)
    (entry : String × ConfigProperty) : Except ConfigError Configuration :=
  let (key, configProp) := entry
  if (config.get host key).isNullish = true then
    match configProp.default with
    | none => .ok config
    | some default =>
        match configProp.coerced host default with
        | .ok value => .ok (config.assign key value)
        | .error error => .error (.coercion key .default error.message)
  else .ok config

def applyDefaultValues (host : Host) (config : Configuration)
    (desc : NewConfigDescription) : Except ConfigError Configuration :=
  desc.entries.foldlM (applyDefaultValue host) config

def validateUnwantedKeys (config : Configuration)
    (desc : NewConfigDescription) : Except ConfigError Unit :=
  match (enumerated config.own).find? fun field => !desc.has field.1 with
  | some field => .error (.unacceptedKey field.1)
  | none => .ok ()

def validateRequiredKeys (host : Host) (config : Configuration)
    (desc : NewConfigDescription) : Except ConfigError Unit :=
  match desc.entries.find? fun (key, configProp) =>
      configProp.required.getD false &&
        (config.get host key).isUndefined with
  | some (key, _) => .error (.missingRequiredConfig key)
  | none => .ok ()

/-- `twakeConfig` where the old parser is not used. -/
def twakeConfig (host : Host) (desc : NewConfigDescription)
    (defaultConfigurationFile : Option ConfigurationFile) (useEnv : Bool) :
    Except ConfigError Configuration := do
  let config ← initialConfig host defaultConfigurationFile
  let config ← applyEnvironmentVariables host config desc useEnv
  let config ← applyDefaultValues host config desc
  validateUnwantedKeys config desc
  validateRequiredKeys host config desc
  return config

end TwakeKickstart.ConfigParser
