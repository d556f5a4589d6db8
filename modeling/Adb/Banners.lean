import Adb.ServerState
import Adb.ShellServices
import Mathlib.Data.Finset.Basic
import Mathlib.Data.List.Nodup

/-!
The banner of a connection: the text that `get_connection_string` makes of the
product properties and the feature set, and how `parse_banner` reads it into a
transport.
-/

namespace Adb.Banners

open Adb.DescriptorIo
open Adb.ProtocolStrings
open Adb.ServerState
open Adb.ShellServices
open Adb.WirePackets

abbrev FeatureSet := Finset Bytes

/-- The order in which an `unordered_set` is traversed: every element once. -/
structure Traversal where
  order : FeatureSet → List Bytes
  nodup (features : FeatureSet) : (order features).Nodup
  mem_order (features : FeatureSet) (name : Bytes) : name ∈ order features ↔ name ∈ features

def featureSetToString (traversal : Traversal) (features : FeatureSet) : Bytes :=
  [44].intercalate (traversal.order features)

def stringToFeatureSet (featuresString : Bytes) : FeatureSet :=
  if featuresString = [] then ∅ else (featuresString.splitOn 44).toFinset

/-- The fields of an `atransport` that a banner sets. -/
structure Described where
  product : Option Bytes
  model : Option Bytes
  device : Option Bytes
  features : FeatureSet
  connectionState : ConnectionState
  deriving DecidableEq

def setFeatures (t : Described) (featuresString : Bytes) : Described :=
  { t with features := stringToFeatureSet featuresString }

def qualOverwrite (src : Bytes) : Option Bytes := some (cString src)

/-- `get_connection_string` of adbd; `banner` is `adb_device_banner`, and the
properties are what `GetProperty` returns. -/
def getConnectionString (traversal : Traversal) (banner product model device : CText)
    (supportedFeatures : FeatureSet) : Bytes :=
  let connectionProperties :=
    [ascii "ro.product.name" ++ ascii "=" ++ product.text,
      ascii "ro.product.model" ++ ascii "=" ++ model.text,
      ascii "ro.product.device" ++ ascii "=" ++ device.text,
      ascii "features=" ++ cString (featureSetToString traversal supportedFeatures)]
  banner.text ++ ascii "::" ++ cString ([59].intercalate connectionProperties)

/-- One property in the loop of `parse_banner`. -/
def parseProperty (t : Described) (prop : Bytes) : Described :=
  if prop = [] then t
  else
    match prop.splitOn 61 with
    | [key, value] =>
        if key = ascii "ro.product.name" then { t with product := qualOverwrite value }
        else if key = ascii "ro.product.model" then { t with model := qualOverwrite value }
        else if key = ascii "ro.product.device" then { t with device := qualOverwrite value }
        else if key = ascii "features" then setFeatures t value
        else t
    | _ => t

/-- The connection state that belongs to a banner type. -/
def typeState (type : Bytes) : ConnectionState :=
  if type = ascii "bootloader" then .bootloader
  else if type = ascii "device" then .device
  else if type = ascii "recovery" then .recovery
  else if type = ascii "sideload" then .sideload
  else .host

def parseBanner (banner : Bytes) (t : Described) : Described :=
  let pieces := banner.splitOn 58
  let t := setFeatures t []
  let t :=
    match pieces with
    | _ :: _ :: props :: _ => (props.splitOn 59).foldl parseProperty t
    | _ => t
  { t with connectionState := typeState (pieces.headD []) }

/-- A property value: it ends where the next separator stands. -/
structure PlainValue (value : Bytes) : Prop where
  noColon : 58 ∉ value
  noSemicolon : 59 ∉ value
  noEquals : 61 ∉ value

/-- The name of a feature. -/
structure PlainName (name : Bytes) : Prop extends PlainValue name where
  nonempty : name ≠ []
  noComma : 44 ∉ name

theorem mem_intercalate {x b : UInt8} {texts : List Bytes} (h : b ∈ [x].intercalate texts) :
    b = x ∨ ∃ text ∈ texts, b ∈ text := by
  induction texts with
  | nil => cases h
  | cons text texts ih =>
      cases texts with
      | nil => exact .inr ⟨text, List.mem_cons_self, by simpa using h⟩
      | cons next texts =>
          rw [List.intercalate_cons_cons, List.append_assoc, List.mem_append,
            List.mem_append] at h
          rcases h with h | h | h
          · exact .inr ⟨text, List.mem_cons_self, h⟩
          · exact .inl (List.mem_singleton.mp h)
          · exact (ih h).imp id fun ⟨text', hmem, hb⟩ =>
              ⟨text', List.mem_cons_of_mem text hmem, hb⟩

section

variable {traversal : Traversal} {features : FeatureSet}

theorem toFinset_order (traversal : Traversal) (features : FeatureSet) :
    (traversal.order features).toFinset = features := by
  ext name
  rw [List.mem_toFinset, traversal.mem_order]

theorem not_mem_featureSetToString (traversal : Traversal) {b : UInt8} (hcomma : b ≠ 44)
    (h : ∀ name ∈ features, b ∉ name) : b ∉ featureSetToString traversal features := by
  intro hmem
  rcases mem_intercalate hmem with heq | ⟨name, hname, hb⟩
  · exact hcomma heq
  · exact h name ((traversal.mem_order features name).mp hname) hb

theorem stringToFeatureSet_toString (hnames : ∀ name ∈ features, PlainName name) :
    stringToFeatureSet (featureSetToString traversal features) = features := by
  have horder : ∀ name ∈ traversal.order features, PlainName name := fun name hname =>
    hnames name ((traversal.mem_order features name).mp hname)
  rcases eq_or_ne (traversal.order features) [] with hnil | hne
  · rw [featureSetToString, hnil, ← toFinset_order traversal features, hnil]
    rfl
  · have hsplit : (featureSetToString traversal features).splitOn 44 =
        traversal.order features :=
      List.splitOn_intercalate 44 (fun name hname => (horder name hname).noComma) hne
    rw [stringToFeatureSet, if_neg, hsplit, toFinset_order]
    -- the empty string would be one empty name
    intro hempty
    rw [hempty, List.splitOn_nil] at hsplit
    exact (horder [] (by rw [← hsplit]; exact List.mem_cons_self)).nonempty rfl

end

section

variable {t : Described} {key value : Bytes}

theorem splitOn_property (hkey : 61 ∉ key) (hvalue : 61 ∉ value) :
    (key ++ 61 :: value).splitOn 61 = [key, value] := by
  rw [List.splitOn_append_cons_self_of_not_mem hkey, List.splitOn_eq_singleton hvalue]

theorem parseProperty_append (t : Described) (hkey : 61 ∉ key) (hvalue : 61 ∉ value) :
    parseProperty t (key ++ 61 :: value) =
      if key = ascii "ro.product.name" then { t with product := qualOverwrite value }
      else if key = ascii "ro.product.model" then { t with model := qualOverwrite value }
      else if key = ascii "ro.product.device" then { t with device := qualOverwrite value }
      else if key = ascii "features" then setFeatures t value
      else t := by
  rw [parseProperty, if_neg (by simp), splitOn_property hkey hvalue]

theorem qualOverwrite_text (value : CText) : qualOverwrite value.text = some value.text := by
  rw [qualOverwrite, cString_of_not_mem value.nulFree]

theorem headD_splitOn (x : UInt8) (text : Bytes) :
    (text.splitOn x).headD [] = text.takeWhile (· ≠ x) := by
  induction text with
  | nil => rfl
  | cons b text ih =>
      rw [List.splitOn_cons_eq_if_modifyHead, List.takeWhile_cons]
      cases hsplit : text.splitOn x with
      | nil => exact absurd hsplit (List.splitOn_ne_nil x text)
      | cons first rest =>
          rw [hsplit] at ih
          rcases eq_or_ne b x with rfl | hne
          · simp
          · simp_all

theorem parseBanner_connectionState (banner : Bytes) (t : Described) :
    (parseBanner banner t).connectionState = bannerState banner := by
  rw [parseBanner, headD_splitOn]
  rfl

end

section

variable {traversal : Traversal} {banner product model device : CText} {features : FeatureSet}

/-- The properties of a banner, in the order in which they are sent. -/
def properties (product model device featuresString : Bytes) : List Bytes :=
  [ascii "ro.product.name" ++ 61 :: product, ascii "ro.product.model" ++ 61 :: model,
    ascii "ro.product.device" ++ 61 :: device, ascii "features" ++ 61 :: featuresString]

theorem foldl_properties (t : Described) (hproduct : PlainValue product.text)
    (hmodel : PlainValue model.text) (hdevice : PlainValue device.text)
    {featuresString : Bytes} (hfeatures : 61 ∉ featuresString) :
    (properties product.text model.text device.text featuresString).foldl parseProperty t =
      ⟨some product.text, some model.text, some device.text, stringToFeatureSet featuresString,
        t.connectionState⟩ := by
  have hname : parseProperty t (ascii "ro.product.name" ++ 61 :: product.text) =
      { t with product := some product.text } := by
    rw [parseProperty_append t (by decide) hproduct.noEquals, qualOverwrite_text]
    rfl
  simp only [properties, List.foldl_cons, List.foldl_nil, hname]
  rw [parseProperty_append _ (by decide) hmodel.noEquals,
    parseProperty_append _ (by decide) hdevice.noEquals,
    parseProperty_append _ (by decide) hfeatures, qualOverwrite_text, qualOverwrite_text]
  rfl

theorem not_mem_properties {b : UInt8} {featuresString : Bytes}
    (hfixed : b ∉ ascii "ro.product.name=model=device=features=")
    (hproduct : b ∉ product.text) (hmodel : b ∉ model.text) (hdevice : b ∉ device.text)
    (hfeatures : b ∉ featuresString) :
    ∀ prop ∈ properties product.text model.text device.text featuresString, b ∉ prop := by
  have hkey : ∀ key ∈ [ascii "ro.product.name", ascii "ro.product.model",
      ascii "ro.product.device", ascii "features"], ∀ c ∈ key ++ [61],
      c ∈ ascii "ro.product.name=model=device=features=" := by decide +kernel
  have hnot : ∀ key ∈ [ascii "ro.product.name", ascii "ro.product.model",
      ascii "ro.product.device", ascii "features"], ∀ value, b ∉ value →
      b ∉ key ++ 61 :: value := by
    intro key hmem value hvalue hb
    rw [List.append_cons, List.mem_append] at hb
    exact hb.elim (fun h => hfixed (hkey key hmem b h)) hvalue
  intro prop hprop
  simp only [properties, List.mem_cons, List.not_mem_nil, or_false] at hprop
  rcases hprop with rfl | rfl | rfl | rfl
  · exact hnot _ (by simp) _ hproduct
  · exact hnot _ (by simp) _ hmodel
  · exact hnot _ (by simp) _ hdevice
  · exact hnot _ (by simp) _ hfeatures

theorem getConnectionString_eq (hfeatures : ∀ name ∈ features, 0 ∉ name) :
    getConnectionString traversal banner product model device features =
      banner.text ++ 58 :: ([] ++ 58 :: [59].intercalate
        (properties product.text model.text device.text
          (featureSetToString traversal features))) := by
  have hstring := not_mem_featureSetToString traversal (show (0 : UInt8) ≠ 44 by decide) hfeatures
  have hprops : 0 ∉ [59].intercalate (properties product.text model.text device.text
      (featureSetToString traversal features)) := by
    intro h
    rcases mem_intercalate h with h | ⟨prop, hprop, hmem⟩
    · exact absurd h (by decide)
    · exact not_mem_properties (by decide) product.nulFree model.nulFree device.nulFree hstring
        prop hprop hmem
  have hjoined : getConnectionString traversal banner product model device features =
      banner.text ++ ascii "::" ++ cString ([59].intercalate
        (properties product.text model.text device.text
          (cString (featureSetToString traversal features)))) := by
    simp [getConnectionString, properties, show ascii "=" = [61] by decide,
      show ascii "features=" = ascii "features" ++ [61] by decide]
  rw [hjoined, cString_of_not_mem hstring, cString_of_not_mem hprops]
  simp [show ascii "::" = [58, 58] by decide]

/-- `parse_banner` reads back what `get_connection_string` of adbd writes, and
keeps nothing of what the transport held; the feature string alone is read back
too. -/
theorem parseBanner_getConnectionString (traversal : Traversal)
    (banner product model device : CText) (features : FeatureSet) (t : Described)
    (hbanner : 58 ∉ banner.text) (hproduct : PlainValue product.text)
    (hmodel : PlainValue model.text) (hdevice : PlainValue device.text)
    (hnames : ∀ name ∈ features, PlainName name) :
    ((∀ name ∈ features, 0 ∉ name) →
      parseBanner (getConnectionString traversal banner product model device features) t =
        ⟨some product.text, some model.text, some device.text, features,
          typeState banner.text⟩) ∧
      stringToFeatureSet (featureSetToString traversal features) = features := by
  have hback : stringToFeatureSet (featureSetToString traversal features) = features :=
    stringToFeatureSet_toString hnames
  refine ⟨fun hfeatures => ?_, hback⟩
  have hsemicolon : ∀ prop ∈ properties product.text model.text device.text
      (featureSetToString traversal features), 59 ∉ prop :=
    not_mem_properties (by decide) hproduct.noSemicolon hmodel.noSemicolon hdevice.noSemicolon
      (not_mem_featureSetToString traversal (by decide) fun name hname =>
        (hnames name hname).noSemicolon)
  have hcolon : 58 ∉ [59].intercalate (properties product.text model.text device.text
      (featureSetToString traversal features)) := by
    intro h
    rcases mem_intercalate h with h | ⟨prop, hprop, hmem⟩
    · exact absurd h (by decide)
    · exact not_mem_properties (by decide) hproduct.noColon hmodel.noColon hdevice.noColon
        (not_mem_featureSetToString traversal (by decide) fun name hname =>
          (hnames name hname).noColon) prop hprop hmem
  have hequals : 61 ∉ featureSetToString traversal features :=
    not_mem_featureSetToString traversal (by decide) fun name hname => (hnames name hname).noEquals
  rw [getConnectionString_eq hfeatures, parseBanner,
    List.splitOn_append_cons_self_of_not_mem hbanner,
    List.splitOn_append_cons_self_of_not_mem List.not_mem_nil,
    List.splitOn_eq_singleton hcolon]
  simp only [List.headD_cons]
  rw [List.splitOn_intercalate 59 hsemicolon (List.cons_ne_nil _ _),
    foldl_properties _ hproduct hmodel hdevice hequals, hback]

end

/-- Some order of traversal. -/
noncomputable def someTraversal : Traversal where
  order := Finset.toList
  nodup := Finset.nodup_toList
  mem_order _ _ := Finset.mem_toList

instance (value : Bytes) : Decidable (PlainValue value) :=
  decidable_of_iff (58 ∉ value ∧ 59 ∉ value ∧ 61 ∉ value)
    ⟨fun h => ⟨h.1, h.2.1, h.2.2⟩, fun h => ⟨h.1, h.2, h.3⟩⟩

instance (name : Bytes) : Decidable (PlainName name) :=
  decidable_of_iff (PlainValue name ∧ name ≠ [] ∧ 44 ∉ name)
    ⟨fun h => ⟨h.1, h.2.1, h.2.2⟩, fun h => ⟨h.1, h.2, h.3⟩⟩

/-- A device without a model whose transport was in use before. -/
theorem parseBanner_getConnectionString_foo :
    parseBanner (getConnectionString someTraversal ⟨ascii "device", by decide⟩
        ⟨ascii "foo", by decide⟩ ⟨[], by decide⟩ ⟨ascii "baz", by decide⟩
        {ascii "cmd", ascii "stat_v2"})
        ⟨some (ascii "old"), none, none, {ascii "libusb"}, .offline⟩ =
      ⟨some (ascii "foo"), some [], some (ascii "baz"), {ascii "cmd", ascii "stat_v2"},
        .device⟩ :=
  (parseBanner_getConnectionString someTraversal _ _ _ _ _ _ (by decide) (by decide) (by decide)
    (by decide) (by decide)).1 (by decide)

end Adb.Banners
