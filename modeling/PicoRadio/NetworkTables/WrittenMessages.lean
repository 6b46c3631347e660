import PicoRadio.NetworkTables.TextScanning

/-!
# Text frames a client writes

The messages of a client as JSON values: an object with the method and the parameters, the
parameters an object with its keys in any order, options and properties again objects in which each
key may be there or not. `WrittenMessage` is what is written, `Writes` the message it stands for.

What is written may contain more than the server knows: messages of other methods, and members with
other keys among the options and the properties. `erase` takes these out.
-/

open Json Json.Unpacker

namespace NetworkTables

/-! ### Options -/

/-- A member of the object of options. -/
inductive OptionMember
  | periodic (i : Int32)
  | all (b : Bool)
  | topicsonly (b : Bool)
  | prefixMatch (b : Bool)
  | other (key : Str) (value : Value)

namespace OptionMember

/-- The key of an option and its value: a number for the period, a boolean for the others. -/
def member : OptionMember → Str × Value
  | periodic i => (ascii "periodic", .number (decimalInt i.toInt))
  | all b => (ascii "all", .bool b)
  | topicsonly b => (ascii "topicsonly", .bool b)
  | prefixMatch b => (ascii "prefix", .bool b)
  | other key value => (key, value)

def isOther : OptionMember → Bool
  | other _ _ => true
  | _ => false

/-- The option it sets. -/
def set : OptionMember → SubscriptionOptions → SubscriptionOptions
  | periodic i, options => { options with periodic := i }
  | all b, options => { options with all := b }
  | topicsonly b, options => { options with topicsonly := b }
  | prefixMatch b, options => { options with prefixMatch := b }
  | other _ _, options => options

end OptionMember

/-- Any subset of the options. -/
structure GivenOptions where
  periodic : Option Int32 := none
  all : Option Bool := none
  topicsonly : Option Bool := none
  prefixMatch : Option Bool := none

namespace GivenOptions

variable (given : GivenOptions)

def members : List OptionMember :=
  given.periodic.toList.map .periodic ++ (given.all.toList.map .all ++
    (given.topicsonly.toList.map .topicsonly ++ given.prefixMatch.toList.map .prefixMatch))

/-- The options that are not given have their defaults. -/
def options : SubscriptionOptions where
  periodic := given.periodic.getD SubscriptionOptions.DEFAULT.periodic
  all := given.all.getD SubscriptionOptions.DEFAULT.all
  topicsonly := given.topicsonly.getD SubscriptionOptions.DEFAULT.topicsonly
  prefixMatch := given.prefixMatch.getD SubscriptionOptions.DEFAULT.prefixMatch

theorem foldl_members :
    given.members.foldl (fun options e ↦ e.set options) .DEFAULT = given.options := by
  obtain ⟨_ | _, _ | _, _ | _, _ | _⟩ := given <;> rfl

/-- The order of the members makes no difference. -/
theorem set_comm {e e' : OptionMember} (he : e ∈ given.members) (he' : e' ∈ given.members)
    (options : SubscriptionOptions) : e'.set (e.set options) = e.set (e'.set options) := by
  have hmem : ∀ e ∈ given.members, (∃ i, e = .periodic i ∧ given.periodic = some i) ∨
      (∃ b, e = .all b ∧ given.all = some b) ∨
      (∃ b, e = .topicsonly b ∧ given.topicsonly = some b) ∨
      (∃ b, e = .prefixMatch b ∧ given.prefixMatch = some b) := by
    simp only [members, List.mem_append, List.mem_map, Option.mem_toList]
    rintro e (⟨i, hi, rfl⟩ | ⟨b, hb, rfl⟩ | ⟨b, hb, rfl⟩ | ⟨b, hb, rfl⟩)
    · exact .inl ⟨i, rfl, hi⟩
    · exact .inr (.inl ⟨b, rfl, hb⟩)
    · exact .inr (.inr (.inl ⟨b, rfl, hb⟩))
    · exact .inr (.inr (.inr ⟨b, rfl, hb⟩))
  rcases hmem e he with ⟨x, rfl, hx⟩ | ⟨x, rfl, hx⟩ | ⟨x, rfl, hx⟩ | ⟨x, rfl, hx⟩ <;>
    rcases hmem e' he' with ⟨y, rfl, hy⟩ | ⟨y, rfl, hy⟩ | ⟨y, rfl, hy⟩ | ⟨y, rfl, hy⟩ <;>
    first | rfl | rw [Option.some.inj (hx.symm.trans hy)]

end GivenOptions

/-! ### Properties -/

/-- A member of an object of properties. -/
inductive PropertyMember
  | persistent (b : Bool)
  | retained (b : Bool)
  | cached (b : Bool)
  | other (key : Str) (value : Value)

namespace PropertyMember

/-- The key of a property and its value, a boolean. -/
def member : PropertyMember → Str × Value
  | persistent b => (ascii "persistent", .bool b)
  | retained b => (ascii "retained", .bool b)
  | cached b => (ascii "cached", .bool b)
  | other key value => (key, value)

def isOther : PropertyMember → Bool
  | other _ _ => true
  | _ => false

/-- The property it sets on publishing. -/
def set : PropertyMember → TopicProperties → TopicProperties
  | persistent b, properties => { properties with persistent := b }
  | retained b, properties => { properties with retained := b }
  | cached b, properties => { properties with cached := b }
  | other _ _, properties => properties

/-- The property it sets in an update. -/
def update : PropertyMember → SetPropertiesLocals → SetPropertiesLocals
  | persistent b, l => { l with persistent := some b }
  | retained b, l => { l with retained := some b }
  | cached b, l => { l with cached := some b }
  | other _ _, l => l

end PropertyMember

/-- Any subset of the properties. -/
structure GivenProperties where
  persistent : Option Bool := none
  retained : Option Bool := none
  cached : Option Bool := none

namespace GivenProperties

variable (given : GivenProperties)

def members : List PropertyMember :=
  given.persistent.toList.map .persistent ++ (given.retained.toList.map .retained ++
    given.cached.toList.map .cached)

/-- The properties that are not given have their defaults. -/
def properties : TopicProperties where
  persistent := given.persistent.getD TopicProperties.DEFAULT.persistent
  retained := given.retained.getD TopicProperties.DEFAULT.retained
  cached := given.cached.getD TopicProperties.DEFAULT.cached

theorem foldl_members :
    given.members.foldl (fun properties e ↦ e.set properties) .DEFAULT = given.properties := by
  obtain ⟨_ | _, _ | _, _ | _⟩ := given <;> rfl

theorem foldl_update (topic : Str) :
    given.members.foldl (fun l e ↦ e.update l) { topic } =
      { topic, persistent := given.persistent, retained := given.retained,
        cached := given.cached } := by
  obtain ⟨_ | _, _ | _, _ | _⟩ := given <;> rfl

theorem mem_members {e : PropertyMember} (he : e ∈ given.members) :
    (∃ b, e = .persistent b ∧ given.persistent = some b) ∨
      (∃ b, e = .retained b ∧ given.retained = some b) ∨
      (∃ b, e = .cached b ∧ given.cached = some b) := by
  simp only [members, List.mem_append, List.mem_map, Option.mem_toList] at he
  obtain ⟨b, hb, rfl⟩ | ⟨b, hb, rfl⟩ | ⟨b, hb, rfl⟩ := he
  · exact .inl ⟨b, rfl, hb⟩
  · exact .inr (.inl ⟨b, rfl, hb⟩)
  · exact .inr (.inr ⟨b, rfl, hb⟩)

/-- The order of the members makes no difference. -/
theorem set_comm {e e' : PropertyMember} (he : e ∈ given.members) (he' : e' ∈ given.members)
    (properties : TopicProperties) :
    e'.set (e.set properties) = e.set (e'.set properties) := by
  rcases given.mem_members he with ⟨x, rfl, hx⟩ | ⟨x, rfl, hx⟩ | ⟨x, rfl, hx⟩ <;>
    rcases given.mem_members he' with ⟨y, rfl, hy⟩ | ⟨y, rfl, hy⟩ | ⟨y, rfl, hy⟩ <;>
    first | rfl | rw [Option.some.inj (hx.symm.trans hy)]

theorem update_comm {e e' : PropertyMember} (he : e ∈ given.members) (he' : e' ∈ given.members)
    (l : SetPropertiesLocals) : e'.update (e.update l) = e.update (e'.update l) := by
  rcases given.mem_members he with ⟨x, rfl, hx⟩ | ⟨x, rfl, hx⟩ | ⟨x, rfl, hx⟩ <;>
    rcases given.mem_members he' with ⟨y, rfl, hy⟩ | ⟨y, rfl, hy⟩ | ⟨y, rfl, hy⟩ <;>
    first | rfl | rw [Option.some.inj (hx.symm.trans hy)]

end GivenProperties

/-! ### Messages -/

/-- A parameter of a subscribe message. -/
inductive SubscribeMember
  | topics (topics : List Str)
  | subuid (i : Int32)
  | options (options : List OptionMember)

/-- A parameter of a publish message. -/
inductive PublishMember
  | name (name : Str)
  | pubuid (i : Int32)
  | type (type : Str)
  | properties (properties : List PropertyMember)

/-- A parameter of a setproperties message. -/
inductive SetPropertiesMember
  | name (name : Str)
  | update (update : List PropertyMember)

/-- An integer. -/
def intValue (i : Int32) : Value :=
  .number (decimalInt i.toInt)

/-- The key and the value: the topics are an array of strings, the options an object. -/
def SubscribeMember.member : SubscribeMember → Str × Value
  | topics ts => (ascii "topics", .array (ts.map .string))
  | subuid i => (ascii "subuid", intValue i)
  | options es => (ascii "options", .object (es.map OptionMember.member))

/-- The key and the value: the type is written as a string, the properties as an object. -/
def PublishMember.member : PublishMember → Str × Value
  | name s => (ascii "name", .string s)
  | pubuid i => (ascii "pubuid", intValue i)
  | type s => (ascii "type", .string s)
  | properties es => (ascii "properties", .object (es.map PropertyMember.member))

/-- The key and the value: the update is an object of properties, like that of a new topic. -/
def SetPropertiesMember.member : SetPropertiesMember → Str × Value
  | name s => (ascii "name", .string s)
  | update es => (ascii "update", .object (es.map PropertyMember.member))

/-- A message of a client. -/
inductive WrittenMessage
  | subscribe (params : List SubscribeMember)
  | publish (params : List PublishMember)
  | unsubscribe (subuid : Int32)
  | unpublish (pubuid : Int32)
  | setproperties (params : List SetPropertiesMember)
  | other (method : Str) (params : List (Str × Value))

/-- The object of a message. -/
def messageValue (method : Str) (params : List (Str × Value)) : Value :=
  .object [(ascii "method", .string method), (ascii "params", .object params)]

def WrittenMessage.value : WrittenMessage → Value
  | subscribe params => messageValue (ascii "subscribe") (params.map SubscribeMember.member)
  | publish params => messageValue (ascii "publish") (params.map PublishMember.member)
  | unsubscribe subuid => messageValue (ascii "unsubscribe") [(ascii "subuid", intValue subuid)]
  | unpublish pubuid => messageValue (ascii "unpublish") [(ascii "pubuid", intValue pubuid)]
  | setproperties params =>
    messageValue (ascii "setproperties") (params.map SetPropertiesMember.member)
  | other method params => messageValue method params

/-- The value of a frame. -/
def frameValue (ws : List WrittenMessage) : Value :=
  .array (ws.map WrittenMessage.value)

/-- Neither a quotation mark nor a backslash: a string that is written as it is. -/
def IsClean (s : Str) : Prop :=
  0x22 ∉ s ∧ 0x5c ∉ s

instance : DecidablePred IsClean :=
  fun s ↦ inferInstanceAs (Decidable (0x22 ∉ s ∧ 0x5c ∉ s))

/-- The message that is written, with each parameter once and in any order. -/
inductive Writes : WrittenMessage → ClientMessage → Prop
  | subscribe {topics : List Str} {subuid : Int32} {given : GivenOptions}
      {options : List OptionMember} {params : List SubscribeMember}
      (htopics : ∀ topic ∈ topics, IsClean topic) (hoptions : options.Perm given.members)
      (hparams : params.Perm [.topics topics, .subuid subuid, .options options]) :
      Writes (.subscribe params) (.subscribe topics subuid given.options)
  | publish {name : Str} {pubuid : Int32} {type : Str} {given : GivenProperties}
      {properties : List PropertyMember} {params : List PublishMember} (hname : IsClean name)
      (htype : IsClean type) (hproperties : properties.Perm given.members)
      (hparams : params.Perm [.name name, .pubuid pubuid, .type type, .properties properties]) :
      Writes (.publish params) (.publish name pubuid (parseDataType type) given.properties)
  | unsubscribe (subuid : Int32) : Writes (.unsubscribe subuid) (.unsubscribe subuid)
  | unpublish (pubuid : Int32) : Writes (.unpublish pubuid) (.unpublish pubuid)
  | setproperties {name : Str} {given : GivenProperties} {update : List PropertyMember}
      {params : List SetPropertiesMember} (hname : IsClean name)
      (hupdate : update.Perm given.members) (hparams : params.Perm [.name name, .update update]) :
      Writes (.setproperties params)
        (.setproperties name given.persistent given.retained given.cached)

/-! ### What the server does not know -/

/-- The methods that have a handler. -/
def handledMethods : List Str :=
  [ascii "publish", ascii "unpublish", ascii "setproperties", ascii "subscribe",
    ascii "unsubscribe"]

def optionKeys : List Str :=
  [ascii "periodic", ascii "all", ascii "topicsonly", ascii "prefix"]

def propertyKeys : List Str :=
  [ascii "persistent", ascii "retained", ascii "cached"]

/-- The other members have other keys. -/
def PropertyMember.Foreign (es : List PropertyMember) : Prop :=
  ∀ key value, .other key value ∈ es → key ∉ propertyKeys

/-- What is written as unknown is unknown: other methods and other keys than the server has. -/
def WrittenMessage.Foreign : WrittenMessage → Prop
  | subscribe params =>
    ∀ es, .options es ∈ params → ∀ key value, .other key value ∈ es → key ∉ optionKeys
  | publish params => ∀ es, .properties es ∈ params → PropertyMember.Foreign es
  | setproperties params => ∀ es, .update es ∈ params → PropertyMember.Foreign es
  | other method _ => method ∉ handledMethods
  | unsubscribe _ | unpublish _ => True

/-- Members with other keys are taken out of the options. -/
def SubscribeMember.erase : SubscribeMember → SubscribeMember
  | options es => options (es.filter fun e ↦ !e.isOther)
  | m => m

/-- They are taken out of the properties of a new topic. -/
def PublishMember.erase : PublishMember → PublishMember
  | properties es => properties (es.filter fun e ↦ !e.isOther)
  | m => m

/-- They are taken out of an update of properties. -/
def SetPropertiesMember.erase : SetPropertiesMember → SetPropertiesMember
  | update es => update (es.filter fun e ↦ !e.isOther)
  | m => m

/-- The message without unknown members. Of another method it stays as it is. -/
def WrittenMessage.erase : WrittenMessage → WrittenMessage
  | subscribe params => subscribe (params.map SubscribeMember.erase)
  | publish params => publish (params.map PublishMember.erase)
  | setproperties params => setproperties (params.map SetPropertiesMember.erase)
  | w => w

def WrittenMessage.isOther : WrittenMessage → Bool
  | other _ _ => true
  | _ => false

/-- The messages without unknown ones and without unknown members. -/
def eraseAll (ws : List WrittenMessage) : List WrittenMessage :=
  (ws.filter fun w ↦ !w.isOther).map WrittenMessage.erase

/-! ### What does no harm -/

/-- The fields of the options: the key and the type of its value. -/
def optionSelects (key : Str) (type : DataType) : Bool :=
  key = ascii "periodic" ∧ type = .int ∨ key = ascii "all" ∧ type.isBool ∨
    key = ascii "topicsonly" ∧ type.isBool ∨ key = ascii "prefix" ∧ type.isBool

/-- The fields of the properties on publishing. -/
def propertySelects (key : Str) (type : DataType) : Bool :=
  key = ascii "persistent" ∧ type.isBool ∨ key = ascii "retained" ∧ type.isBool ∨
    key = ascii "cached" ∧ type.isBool

/-- The fields of the properties in an update. -/
def updateSelects (key : Str) (type : DataType) : Bool :=
  key = ascii "persistent" ∧ type.isBoolOrNull ∨ key = ascii "retained" ∧ type.isBoolOrNull ∨
    key = ascii "cached" ∧ type.isBoolOrNull

/-- The unknown members do no harm in an object with these fields: the strings in them are written
without escaped quotation marks, select no field and do not stand before a closing brace, and the
last member, if it is unknown, is a string. -/
structure TameObject {ε : Type} (selects : Str → DataType → Bool) (isOther : ε → Bool)
    (member : ε → Str × Value) (es : List ε) : Prop where
  ignored : ∀ e ∈ es, isOther e = true → PassedOver selects (member e)
  last : ∀ e, es.getLast? = some e → isOther e = true → ∃ s, (member e).2 = .string s

/-- The unknown content of a message does no harm. In the parameters of an unknown method no token
contains a closing brace. -/
def WrittenMessage.Tame : WrittenMessage → Prop
  | subscribe params => ∀ es, .options es ∈ params →
    TameObject optionSelects OptionMember.isOther OptionMember.member es
  | publish params => ∀ es, .properties es ∈ params →
    TameObject propertySelects PropertyMember.isOther PropertyMember.member es
  | setproperties params => ∀ es, .update es ∈ params →
    TameObject updateSelects PropertyMember.isOther PropertyMember.member es
  | other method params => 0x22 ∉ method ∧ ∀ t ∈ memberTokens params, 0x7d ∉ t.text
  | unsubscribe _ | unpublish _ => True

end NetworkTables
