import ZWaveHost.Proofs.Json.Object
import ZWaveHost.Settings

/-! Settings survive their JSON form. An object that has some of the settings under their names, in any order and among
other fields, is read as these settings, with the usual ones for the rest; the printed object has all of them. -/
namespace ZWaveHost
open Json Json.Grammar

def Settings.scalar (settings : Settings) : Setting → Scalar
  | .serialPort => .text settings.serialPort
  | .baudRate => .natural settings.baudRate.toNat
  | .ackTimeout => .natural settings.ackTimeout.toNat
  | .responseTimeout => .natural settings.responseTimeout.toNat
  | .maxRetries => .natural settings.maxRetries.toNat
  | .retryBase => .natural settings.retryBase.toNat
  | .retryStep => .natural settings.retryStep.toNat
  | .receiveTimeout => .natural settings.receiveTimeout.toNat
  | .queueCapacity => .natural settings.queueCapacity.toNat
  | .writerCapacity => .natural settings.writerCapacity.toNat
  | .closesStore => .bool settings.closesStore

def Settings.field (settings : Settings) (setting : Setting) : Field := (setting.name, settings.scalar setting)

theorem sameSettings {settings others : Settings} (same : ∀ setting, settings.scalar setting = others.scalar setting) :
    settings = others := by
  have serialPort := same .serialPort
  have baudRate := same .baudRate
  have ackTimeout := same .ackTimeout
  have responseTimeout := same .responseTimeout
  have maxRetries := same .maxRetries
  have retryBase := same .retryBase
  have retryStep := same .retryStep
  have receiveTimeout := same .receiveTimeout
  have queueCapacity := same .queueCapacity
  have writerCapacity := same .writerCapacity
  have closesStore := same .closesStore
  cases settings
  cases others
  simp_all [Settings.scalar, ← UInt32.toNat_inj, ← UInt64.toNat_inj, ← UInt8.toNat_inj]

theorem scalarText (settings : Settings) (setting : Setting) :
    ScalarText (settings.scalar setting) (settings.written setting) := by
  cases setting with
  | serialPort => exact .text (stringText _)
  | closesStore => exact boolText _
  | _ => exact .natural _

theorem belowRead {limit n : Nat} (small : n < limit) : Settings.below limit (Scalar.natural n).value = some n :=
  if_pos small

theorem word32Read (n : UInt32) : Settings.word32 (Scalar.natural n.toNat).value = some n := by
  rw [Settings.word32, belowRead n.toNat_lt_size, Option.map_some, UInt32.ofNat_toNat]

theorem word64Read (n : UInt64) : Settings.word64 (Scalar.natural n.toNat).value = some n := by
  rw [Settings.word64, belowRead n.toNat_lt_size, Option.map_some, UInt64.ofNat_toNat]

def Settings.adopt (settings source : Settings) : Setting → Settings
  | .serialPort => { settings with serialPort := source.serialPort }
  | .baudRate => { settings with baudRate := source.baudRate }
  | .ackTimeout => { settings with ackTimeout := source.ackTimeout }
  | .responseTimeout => { settings with responseTimeout := source.responseTimeout }
  | .maxRetries => { settings with maxRetries := source.maxRetries }
  | .retryBase => { settings with retryBase := source.retryBase }
  | .retryStep => { settings with retryStep := source.retryStep }
  | .receiveTimeout => { settings with receiveTimeout := source.receiveTimeout }
  | .queueCapacity => { settings with queueCapacity := source.queueCapacity }
  | .writerCapacity => { settings with writerCapacity := source.writerCapacity }
  | .closesStore => { settings with closesStore := source.closesStore }

theorem adoptScalar (settings source : Settings) (setting other : Setting) :
    (settings.adopt source setting).scalar other =
      if other = setting then source.scalar other else settings.scalar other := by
  cases setting <;> cases other <;> rfl

theorem putScalar (settings source : Settings) (setting : Setting) :
    settings.put setting (source.scalar setting).value = some (settings.adopt source setting) := by
  cases setting with
  | serialPort | closesStore => rfl
  | maxRetries =>
    simp [Settings.put, Settings.scalar, Settings.adopt, belowRead source.maxRetries.toNat_lt_size]
  | _ => simp [Settings.put, Settings.scalar, Settings.adopt, word32Read, word64Read]

theorem adoptedAll (settings source : Settings) (chosen : List Setting) (setting : Setting) :
    (chosen.foldl (·.adopt source ·) settings).scalar setting =
      if setting ∈ chosen then source.scalar setting else settings.scalar setting := by
  induction chosen generalizing settings with
  | nil => simp
  | cons first chosen others =>
    rw [List.foldl_cons, others, adoptScalar]
    by_cases same : setting = first <;> by_cases there : setting ∈ chosen <;> simp [same, there]

theorem everySetting (setting : Setting) : setting ∈ Setting.all := by
  cases setting <;> decide

theorem ofNameNamed (setting : Setting) : Setting.ofName? setting.name = some setting := by
  cases setting <;> decide

def namedFields (fields : List Field) : List Field := fields.filter (·.1 ∈ Setting.all.map Setting.name)

theorem ofNameElse {key : String} (unknown : key ∉ Setting.all.map Setting.name) : Setting.ofName? key = none := by
  refine List.find?_eq_none.mpr fun setting there named => unknown ?_
  exact List.mem_map.mpr ⟨setting, there, by simpa using named⟩

/- By induction on the fields. A field with a name is the next chosen setting, and not one of those seen before; any other
field is passed over. -/
theorem fieldsRead (source settings : Settings) {fields : List Field} {chosen seen : List Setting}
    (named : namedFields fields = chosen.map source.field) (distinct : chosen.Nodup)
    (fresh : ∀ setting ∈ chosen, setting ∉ seen) :
    Settings.ofEntries settings seen (fields.map entryOf) = some (chosen.foldl (·.adopt source ·) settings) := by
  induction fields generalizing settings chosen seen with
  | nil =>
    obtain rfl : chosen = [] := by simpa [namedFields] using named
    rfl
  | cons field fields others =>
    obtain ⟨key, value⟩ := field
    by_cases known : key ∈ Setting.all.map Setting.name
    · rw [namedFields, List.filter_cons_of_pos (by simpa using known)] at named
      match chosen with
      | [] => simp at named
      | setting :: chosen =>
        obtain ⟨first, rest⟩ := List.cons.inj named
        obtain ⟨rfl, rfl⟩ := Prod.mk.inj first
        obtain ⟨notAgain, distinct⟩ := List.nodup_cons.mp distinct
        have unseen : setting ∉ seen := fresh setting (by simp)
        have later : ∀ other ∈ chosen, other ∉ setting :: seen := by
          intro other there
          have apart : other ≠ setting := fun same => notAgain (same ▸ there)
          simp [apart, fresh other (by simp [there])]
        have further := others (settings.adopt source setting) rest distinct later
        simpa [Settings.ofEntries, entryOf, ofNameNamed, unseen, putScalar] using further
    · rw [namedFields, List.filter_cons_of_neg (by simpa using known)] at named
      have further := others settings named distinct fresh
      simpa [Settings.ofEntries, entryOf, ofNameElse known] using further

theorem fieldsOf (settings : Settings) (chosen : List Setting) :
    namedFields (chosen.map settings.field) = chosen.map settings.field := by
  refine List.filter_eq_self.mpr fun field there => ?_
  obtain ⟨setting, -, rfl⟩ := List.mem_map.mp there
  simpa [Settings.field] using ⟨setting, everySetting setting, rfl⟩

theorem printedText (settings : Settings) (chosen : List Setting) :
    ObjectText (chosen.map settings.field) (settings.printOnly chosen) := by
  refine objectText ?_
  rw [List.forall₂_map_left_iff, List.forall₂_map_right_iff, List.forall₂_same]
  exact fun setting _ => ⟨rfl, scalarText settings setting⟩

theorem partlyRead (source : Settings) {chosen : List Setting} {fields : List Field} {text : List Char}
    (distinct : chosen.Nodup) (named : namedFields fields = chosen.map source.field)
    (written : ObjectText fields text) :
    Settings.parse text = .ok (chosen.foldl (·.adopt source ·) {}) := by
  have fresh : ∀ setting ∈ chosen, setting ∉ [] := by simp
  have read := fieldsRead source {} named distinct fresh
  simp [Settings.parse, readObject written, Settings.ofValue?, read]

/-- Settings survive their JSON form, wholly and in part. An object with some settings under their names, each once and
in any order, perhaps among fields with other names, is read in whatever way it is written: as these settings, with the
usual ones for the rest. The printed settings are read as themselves. -/
theorem Settings.survivesJson (settings : Settings) :
    (∀ (chosen : List Setting) (fields : List Field) (text : List Char), chosen.Nodup →
      namedFields fields = chosen.map settings.field → ObjectText fields text →
      ∃ read, Settings.parse text = .ok read ∧
        ∀ setting, read.scalar setting =
          if setting ∈ chosen then settings.scalar setting else ({} : Settings).scalar setting) ∧
    Settings.parse settings.print.toList = .ok settings := by
  refine ⟨fun chosen fields text distinct named written => ?_, ?_⟩
  · exact ⟨_, partlyRead settings distinct named written, adoptedAll {} settings chosen⟩
  · have distinct : Setting.all.Nodup := by decide
    have read := partlyRead settings distinct (fieldsOf settings _) (printedText settings _)
    have whole : Setting.all.foldl (·.adopt settings ·) {} = settings :=
      sameSettings fun setting => by rw [adoptedAll, if_pos (everySetting setting)]
    rw [Settings.print, String.toList_ofList, read, whole]

theorem Settings.escapedPortRead :
    let fields : List Field :=
      [("queue_capacity", .natural 18446744073709551615), ("x", .negative 0), ("serial_port", .text "😀/"), ("x", .null)]
    let text := String.toList
      "\x7b\"queue_capacity\" : 18446744073709551615,\n\"x\":-0,\"serial_port\":\"\\ud83D\\uDe00\\/\",\"x\":null\x7d"
    ObjectText fields text ∧
      Settings.parse text = .ok { serialPort := "😀/", queueCapacity := 18446744073709551615 } := by
  intro fields text
  have none : Blank [] := by decide
  have space : Blank [' '] := by decide
  have newline : Blank ['\n'] := by decide
  have high : UnitText 0xD83D ['\\', 'u', 'd', '8', '3', 'D'] := .escape .small .small .small .capital
  have low : UnitText 0xDE00 ['\\', 'u', 'D', 'e', '0', '0'] := .escape .capital .small .small .small
  have emoji : CharText '😀' _ := .units (.cons high (.cons low .nil))
  have slash : CharText '/' ['\\', '/'] := .short (by decide)
  have port : StringText "😀/" _ := .quoted (.cons emoji (.cons slash .nil))
  have written : ObjectText fields _ := .filled none
    (.more (.pair none (stringText _) space space (.natural _) none)
      (.more (.pair newline (stringText _) none none (.negative _) none)
        (.more (.pair none (stringText _) none none (.text port) none)
          (.last (.pair none (stringText _) none none .null none))))) none
  have same : ObjectText fields text := written
  refine ⟨same, ?_⟩
  obtain ⟨read, parsed, scalars⟩ := (Settings.survivesJson
    { serialPort := "😀/", queueCapacity := 18446744073709551615 }).1 [.queueCapacity, .serialPort] fields text
    (by decide) (by decide) same
  rw [parsed, sameSettings fun setting => (scalars setting).trans (by cases setting <;> rfl)]

end ZWaveHost
