import Apcupsd.Core.UpsInfo
import Apcupsd.Foundations.CStrings
import Mathlib.Logic.Function.Basic

/-!
# The settings of the configuration file

The fields of {lit}`UPSINFO` that {lit}`apcupsd.conf` sets, and the table of its directives
from {lit}`apcconfig.c`.

Main results:

- Theorem {lit}`table_wellFormed`: every directive with a list of values has one, whose names are
  distinct words that fit the record.
-/

namespace Apcupsd
namespace Config

open CStrings

/-! ## The record -/

/-- {lit}`MAXSTRING`. -/
def maxString : ℕ := 256

/-- {lit}`APC_FILENAME_MAX`. -/
def apcFilenameMax : ℕ := 4096

/-- The settings that are texts. -/
inductive StringSetting where
  | upsname | device | lockpath | scriptdir | pwrfailpath | nologinpath | nisip | eventfile
  | statfile | selftest | beepstate | battdat | sensitivity
deriving DecidableEq, Repr

/-- {lit}`SIZE`: the room for a text, with its terminator. -/
def StringSetting.size : StringSetting → ℕ
  | .upsname => 100
  | .device => maxString
  | .lockpath => apcFilenameMax
  | .scriptdir => apcFilenameMax
  | .pwrfailpath => apcFilenameMax
  | .nologinpath => apcFilenameMax
  | .nisip => 64
  | .eventfile => apcFilenameMax
  | .statfile => apcFilenameMax
  | .selftest => 9
  | .beepstate => 8
  | .battdat => 20
  | .sensitivity => 8

/-- The settings that are numbers or switches. -/
inductive IntSetting where
  | polltime | annoy | annoydelay | onbattdelay | maxtime | percent | runtime | killdelay
  | netstats | statusport | eventfilemax | logstats | stattime | datatime | hitrans | lotrans
  | dlowbatt | dwake | rtnpct | nomOutputVoltage | dshutd
deriving DecidableEq, Repr

/-- The settings that are chosen from a list. -/
inductive ChoiceSetting where
  | cable | mode | nologin | upsclass | sharenet
deriving DecidableEq, Repr

/-- {lit}`INTERNALGENINFO`, and {lit}`GENINFO` up to the entry without a name. -/
structure GenInfo where
  name : List Char
  longName : List Char
  type : Int
deriving DecidableEq

/-- The fields of {lit}`UPSINFO` that the configuration sets; the last two are set from others. -/
structure Settings where
  strings : StringSetting → List Char
  ints : IntSetting → Int
  choices : ChoiceSetting → GenInfo
  sysfac : Int
  nologinTime : Int
  lockfile : Int

/-- A text is stored. -/
def Settings.setString (settings : Settings) (field : StringSetting) (text : List Char) :
    Settings :=
  { settings with strings := Function.update settings.strings field text }

/-- A number is stored. -/
def Settings.setInt (settings : Settings) (field : IntSetting) (n : Int) : Settings :=
  { settings with ints := Function.update settings.ints field n }

/-- An entry of a list is stored. -/
def Settings.setChoice (settings : Settings) (field : ChoiceSetting) (entry : GenInfo) :
    Settings :=
  { settings with choices := Function.update settings.choices field entry }

@[simp]
theorem Settings.setInt_ints (settings : Settings) (field : IntSetting) (n : Int) :
    (settings.setInt field n).ints field = n :=
  Function.update_self ..

@[simp]
theorem Settings.setChoice_choices (settings : Settings) (field : ChoiceSetting)
    (entry : GenInfo) : (settings.setChoice field entry).choices field = entry :=
  Function.update_self ..

@[simp]
theorem Settings.setString_strings (settings : Settings) (field : StringSetting)
    (text : List Char) : (settings.setString field text).strings field = text :=
  Function.update_self ..

theorem Settings.setInt_of_ne (settings : Settings) {field other : IntSetting}
    (hother : other ≠ field) (n : Int) :
    (settings.setInt field n).ints other = settings.ints other :=
  Function.update_of_ne hother ..

theorem Settings.setChoice_of_ne (settings : Settings) {field other : ChoiceSetting}
    (hother : other ≠ field) (entry : GenInfo) :
    (settings.setChoice field entry).choices other = settings.choices other :=
  Function.update_of_ne hother ..

theorem Settings.setString_of_ne (settings : Settings) {field other : StringSetting}
    (hother : other ≠ field) (text : List Char) :
    (settings.setString field text).strings other = settings.strings other :=
  Function.update_of_ne hother ..

/-- What has been stored can be told from the record. -/
theorem Settings.setInt_inj {settings : Settings} {field : IntSetting} {m n : Int}
    (heq : settings.setInt field m = settings.setInt field n) : m = n := by
  rw [← settings.setInt_ints field m, heq, Settings.setInt_ints]

/-! ## Lists of values -/

/-- {lit}`UpsCable`. -/
inductive UpsCable where
  | noCable | customSimple | apc940_0119A | apc940_0127A | apc940_0128A | apc940_0020B
  | apc940_0020C | apc940_0023A | mamCable | apc940_0095A | apc940_0095B | apc940_0095C
  | cableSmart | apcNet | usbCable
deriving DecidableEq, Repr

/-- The number of a cable. -/
def UpsCable.code (cable : UpsCable) : Int :=
  cable.ctorIdx

/-- {lit}`ShareNetMode`. -/
inductive ShareNetMode where
  | noShareNet | disable | share
deriving DecidableEq, Repr

/-- {lit}`onoroff`. -/
def onoroff : List GenInfo :=
  [⟨"off".toList, "off".toList, 0⟩, ⟨"on".toList, "on".toList, 1⟩]

/-- {lit}`cables`. -/
def cables : List GenInfo :=
  [⟨"simple".toList, "Custom Cable Simple".toList, UpsCable.code .customSimple⟩,
    ⟨"smart".toList, "Custom Cable Smart".toList, UpsCable.code .cableSmart⟩,
    ⟨"ether".toList, "Ethernet Link".toList, UpsCable.code .apcNet⟩,
    ⟨"940-0119A".toList, "APC Cable 940-0119A".toList, UpsCable.code .apc940_0119A⟩,
    ⟨"940-0127A".toList, "APC Cable 940-0127A".toList, UpsCable.code .apc940_0127A⟩,
    ⟨"940-0128A".toList, "APC Cable 940-0128A".toList, UpsCable.code .apc940_0128A⟩,
    ⟨"940-0020B".toList, "APC Cable 940-0020B".toList, UpsCable.code .apc940_0020B⟩,
    ⟨"940-0020C".toList, "APC Cable 940-0020C".toList, UpsCable.code .apc940_0020C⟩,
    ⟨"940-0023A".toList, "APC Cable 940-0023A".toList, UpsCable.code .apc940_0023A⟩,
    ⟨"940-0024B".toList, "APC Cable 940-0024B".toList, UpsCable.code .cableSmart⟩,
    ⟨"940-0024C".toList, "APC Cable 940-0024C".toList, UpsCable.code .cableSmart⟩,
    ⟨"940-1524C".toList, "APC Cable 940-1524C".toList, UpsCable.code .cableSmart⟩,
    ⟨"940-0024G".toList, "APC Cable 940-0024G".toList, UpsCable.code .cableSmart⟩,
    ⟨"940-0625A".toList, "APC Cable 940-0625A".toList, UpsCable.code .cableSmart⟩,
    ⟨"940-0095A".toList, "APC Cable 940-0095A".toList, UpsCable.code .apc940_0095A⟩,
    ⟨"940-0095B".toList, "APC Cable 940-0095B".toList, UpsCable.code .apc940_0095B⟩,
    ⟨"940-0095C".toList, "APC Cable 940-0095C".toList, UpsCable.code .apc940_0095C⟩,
    ⟨"MAM-04-02-2000".toList, "MAM Cable 04-02-2000".toList, UpsCable.code .mamCable⟩,
    ⟨"usb".toList, "USB Cable".toList, UpsCable.code .usbCable⟩]

/-- {lit}`upsclasses`. -/
def upsclasses : List GenInfo :=
  [⟨"standalone".toList, "Stand Alone".toList, ClassMode.standalone.ctorIdx⟩,
    ⟨"shareslave".toList, "ShareUPS Slave".toList, ClassMode.shareslave.ctorIdx⟩,
    ⟨"sharemaster".toList, "ShareUPS Master".toList, ClassMode.sharemaster.ctorIdx⟩]

/-- {lit}`logins`. -/
def logins : List GenInfo :=
  [⟨"always".toList, "always".toList, NoLoginMode.always.ctorIdx⟩,
    ⟨"disable".toList, "disable".toList, NoLoginMode.never.ctorIdx⟩,
    ⟨"timeout".toList, "timeout".toList, NoLoginMode.timeout.ctorIdx⟩,
    ⟨"percent".toList, "percent".toList, NoLoginMode.percent.ctorIdx⟩,
    ⟨"minutes".toList, "minutes".toList, NoLoginMode.minutes.ctorIdx⟩]

/-- {lit}`modes`. -/
def modes : List GenInfo :=
  [⟨"disable".toList, "Network & ShareUPS Disabled".toList, ShareNetMode.disable.ctorIdx⟩,
    ⟨"share".toList, "ShareUPS".toList, ShareNetMode.share.ctorIdx⟩]

/-- {lit}`types`. -/
def types : List GenInfo :=
  [⟨"dumb".toList, "DUMB UPS Driver".toList, UpsMode.dumbUps.ctorIdx⟩,
    ⟨"apcsmart".toList, "APC Smart UPS (any)".toList, UpsMode.apcsmartUps.ctorIdx⟩,
    ⟨"usb".toList, "USB UPS Driver".toList, UpsMode.usbUps.ctorIdx⟩,
    ⟨"snmp".toList, "SNMP UPS Driver".toList, UpsMode.snmpliteUps.ctorIdx⟩,
    ⟨"net".toList, "NETWORK UPS Driver".toList, UpsMode.networkUps.ctorIdx⟩,
    ⟨"test".toList, "TEST UPS Driver".toList, UpsMode.testUps.ctorIdx⟩,
    ⟨"pcnet".toList, "PCNET UPS Driver".toList, UpsMode.pcnetUps.ctorIdx⟩,
    ⟨"modbus".toList, "MODBUS UPS Driver".toList, UpsMode.modbusUps.ctorIdx⟩]

/-- {lit}`facnames`, with the numbers of the system log. -/
def facnames : List (List Char × Int) :=
  [("daemon".toList, 24), ("local0".toList, 128), ("local1".toList, 136),
    ("local2".toList, 144), ("local3".toList, 152), ("local4".toList, 160),
    ("local5".toList, 168), ("local6".toList, 176), ("local7".toList, 184), ("lpr".toList, 48),
    ("mail".toList, 16), ("news".toList, 56), ("uucp".toList, 64), ("user".toList, 8)]

/-! ## Directives -/

/-- {lit}`HANDLER` with the {lit}`offset` and the {lit}`values` of an entry of the table. -/
inductive Handler where
  | matchStr (field : StringSetting)
  | matchInt (field : IntSetting)
  | matchRange (field : ChoiceSetting) (values : List GenInfo)
  | matchIndex (field : IntSetting) (values : List GenInfo)
  | matchFacility
  | obsolete (bailOut : Bool)
deriving DecidableEq

/-- {lit}`table`. -/
def table : List (List Char × Handler) :=
  [("UPSNAME".toList, .matchStr .upsname),
    ("UPSCABLE".toList, .matchRange .cable cables),
    ("UPSTYPE".toList, .matchRange .mode types),
    ("DEVICE".toList, .matchStr .device),
    ("POLLTIME".toList, .matchInt .polltime),
    ("LOCKFILE".toList, .matchStr .lockpath),
    ("SCRIPTDIR".toList, .matchStr .scriptdir),
    ("PWRFAILDIR".toList, .matchStr .pwrfailpath),
    ("NOLOGINDIR".toList, .matchStr .nologinpath),
    ("ANNOY".toList, .matchInt .annoy),
    ("ANNOYDELAY".toList, .matchInt .annoydelay),
    ("ONBATTERYDELAY".toList, .matchInt .onbattdelay),
    ("TIMEOUT".toList, .matchInt .maxtime),
    ("NOLOGON".toList, .matchRange .nologin logins),
    ("BATTERYLEVEL".toList, .matchInt .percent),
    ("MINUTES".toList, .matchInt .runtime),
    ("KILLDELAY".toList, .matchInt .killdelay),
    ("NETSERVER".toList, .matchIndex .netstats onoroff),
    ("NISIP".toList, .matchStr .nisip),
    ("NISPORT".toList, .matchInt .statusport),
    ("EVENTSFILE".toList, .matchStr .eventfile),
    ("EVENTSFILEMAX".toList, .matchInt .eventfilemax),
    ("FACILITY".toList, .matchFacility),
    ("STATFILE".toList, .matchStr .statfile),
    ("LOGSTATS".toList, .matchIndex .logstats onoroff),
    ("STATTIME".toList, .matchInt .stattime),
    ("DATATIME".toList, .matchInt .datatime),
    ("SELFTEST".toList, .matchStr .selftest),
    ("HITRANSFER".toList, .matchInt .hitrans),
    ("LOTRANSFER".toList, .matchInt .lotrans),
    ("LOWBATT".toList, .matchInt .dlowbatt),
    ("WAKEUP".toList, .matchInt .dwake),
    ("RETURNCHARGE".toList, .matchInt .rtnpct),
    ("OUTPUTVOLTS".toList, .matchInt .nomOutputVoltage),
    ("SLEEP".toList, .matchInt .dshutd),
    ("BEEPSTATE".toList, .matchStr .beepstate),
    ("BATTDATE".toList, .matchStr .battdat),
    ("SENSITIVITY".toList, .matchStr .sensitivity),
    ("UPSCLASS".toList, .matchRange .upsclass upsclasses),
    ("UPSMODE".toList, .matchRange .sharenet modes),
    ("NETTIME".toList, .matchInt .polltime),
    ("CONTROL".toList, .obsolete true),
    ("NETACCESS".toList, .obsolete true),
    ("MASTER".toList, .obsolete true),
    ("USERMAGIC".toList, .obsolete false),
    ("SLAVE".toList, .obsolete false),
    ("NETPORT".toList, .obsolete false),
    ("NETSTATUS".toList, .obsolete false),
    ("SERVERPORT".toList, .obsolete false)]

/-- {lit}`strcasecmp` finds no difference. -/
def SameWord (word name : List Char) : Prop :=
  word.map Char.toLower = name.map Char.toLower

instance (word name : List Char) : Decidable (SameWord word name) :=
  inferInstanceAs (Decidable (_ = _))

/-- Names that the words of a line can be compared with: not empty, and no two the same. -/
structure WellNamed (names : List (List Char)) : Prop where
  nonempty : names ≠ []
  words : ∀ name ∈ names, name ≠ [] ∧ name.all (fun c => !isspace c) = true
  distinct : (names.map (List.map Char.toLower)).Nodup

instance (names : List (List Char)) : Decidable (WellNamed names) :=
  decidable_of_iff (names ≠ [] ∧
    (∀ name ∈ names, name ≠ [] ∧ name.all (fun c => !isspace c) = true) ∧
    (names.map (List.map Char.toLower)).Nodup)
    ⟨fun h => ⟨h.1, h.2.1, h.2.2⟩, fun h => ⟨h.1, h.2, h.3⟩⟩

/-- The lists of a directive are well named, and their entries fit {lit}`INTERNALGENINFO`. -/
def Handler.WellFormed : Handler → Prop
  | .matchRange _ values => WellNamed (values.map GenInfo.name) ∧
      ∀ entry ∈ values, entry.name.length < maxString ∧ entry.longName.length < maxString
  | .matchIndex _ values => WellNamed (values.map GenInfo.name)
  | .matchFacility => WellNamed (facnames.map Prod.fst)
  | _ => True

instance : (handler : Handler) → Decidable handler.WellFormed
  | .matchRange _ values => inferInstanceAs (Decidable (WellNamed (values.map GenInfo.name) ∧
      ∀ entry ∈ values, entry.name.length < maxString ∧ entry.longName.length < maxString))
  | .matchIndex _ values => inferInstanceAs (Decidable (WellNamed (values.map GenInfo.name)))
  | .matchFacility => inferInstanceAs (Decidable (WellNamed (facnames.map Prod.fst)))
  | .matchStr _ => isTrue trivial
  | .matchInt _ => isTrue trivial
  | .obsolete _ => isTrue trivial

/-- The table is well formed. -/
theorem table_wellFormed : ∀ pair ∈ table, pair.2.WellFormed := by
  decide +kernel

/-- No directive hides another one. -/
theorem table_nodup : (table.map Prod.fst).Nodup := by
  decide +kernel

end Config
end Apcupsd
