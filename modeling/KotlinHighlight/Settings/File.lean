import KotlinHighlight.Json.Reader
import KotlinHighlight.Json.Writer
import KotlinHighlight.Settings

/-! # The settings file

Settings are kept in a JSON file in UTF-8. A file that is missing or cannot be understood holds no
settings. Saving replaces what the file held and never reports a failure: if the settings cannot be
written to their end, the file ends where they could not.
-/

namespace KotlinHighlight

/-- A settings file with its bytes, or none. -/
structure SettingsFile where
  bytes : Option ByteArray

namespace SettingsFile

def missing : SettingsFile :=
  ⟨none⟩

def ofText (text : Text) : SettingsFile :=
  ⟨some (String.ofList text).toUTF8⟩

def text? (file : SettingsFile) : Option Text :=
  (file.bytes.bind String.fromUTF8?).map String.toList

/-- The settings that a text spells; none if it spells no object. -/
def settingsOf (text : Text) : Settings :=
  ((Json.parse? text).bind Json.members?).getD []

/-- The settings that the file holds. -/
def load (file : SettingsFile) : Settings :=
  (file.text?.map settingsOf).getD []

/-- The file after settings were saved to it. -/
def save (_file : SettingsFile) (settings : Json) : SettingsFile :=
  ofText settings.write.text

/-- The file after an attempt to save settings where no file can be. -/
def saveElsewhere (file : SettingsFile) (_settings : Json) : SettingsFile :=
  file

end SettingsFile

end KotlinHighlight
