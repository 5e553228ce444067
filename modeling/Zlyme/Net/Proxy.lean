import Mathlib.Data.List.DropRight
import Zlyme.Portmaster.MountInfo

/-! # The proxy of the applications

`zlyme-proxy` reads its settings as data and prints them for a shell, for `curl` and for the
launcher, which reads them again.
-/

namespace Zlyme.Net.Proxy

open Foundation.Text Foundation.Decimal
open Portmaster (Text ascii newline)

/-! ## The fields -/

def equals : UInt8 :=
  0x3d

def quote : UInt8 :=
  0x27

def isUpper (byte : UInt8) : Bool :=
  0x41 ≤ byte && byte ≤ 0x5a

def isLower (byte : UInt8) : Bool :=
  0x61 ≤ byte && byte ≤ 0x7a

/-- `[0-9A-Fa-f:.]` -/
def isAddressByte (byte : UInt8) : Bool :=
  isDigit byte || (0x41 ≤ byte && byte ≤ 0x46) || (0x61 ≤ byte && byte ≤ 0x66) ||
    (ascii ":.").contains byte

/-- `[A-Za-z0-9._-]` -/
def isNameByte (byte : UInt8) : Bool :=
  isUpper byte || isLower byte || isDigit byte || (ascii "._-").contains byte

/-- What is between the brackets, where the text begins and ends with them. -/
def bracketed : Text → Option Text
  | 0x5b :: rest => if rest.getLast? = some 0x5d then some rest.dropLast else none
  | _ => none

def isHost (host : Text) : Bool :=
  host != [] && decide (host.length ≤ 253) &&
    match bracketed host with
    | some inner => inner != [] && inner.all isAddressByte
    | none => host.all isNameByte

def isPort (port : Text) : Bool :=
  port != [] && port.all isDigit &&
    decide (1 ≤ value (stripZeros port) ∧ value (stripZeros port) ≤ 65535)

/-- `normalize_enabled`, which has no answer for a word that is `bad`. -/
def normalizeEnabled (word : Text) : Option Bool :=
  if word ∈ [ascii "1", ascii "on", ascii "true", ascii "yes"] then some true
  else if word ∈ [ascii "0", ascii "off", ascii "false", ascii "no", []] then some false
  else none

inductive Protocol
  | http
  | socks5
  deriving DecidableEq

def Protocol.name : Protocol → Text
  | .http => ascii "http"
  | .socks5 => ascii "socks5"

def Protocol.scheme : Protocol → Text
  | .http => ascii "http://"
  | .socks5 => ascii "socks5h://"

def Protocol.ofName (name : Text) : Option Protocol :=
  if name = ascii "http" then some .http
  else if name = ascii "socks5" then some .socks5
  else none

/-! ## The file -/

/-- The variables while the file is read. -/
structure Fields where
  enabled : Text
  protocol : Text
  host : Text
  port : Text

/-- The lines of `while IFS= read -r line || [ -n "$line" ]`, which drops NUL. -/
def readLines (text : Text) : List Text :=
  lines (· == newline) (text.filter (· ≠ 0))

/-- `${line%%=*}` and `${line#*=}` -/
def keyAndValue (line : Text) : Text × Text :=
  (cut equals line).getD (line, line)

def Fields.readLine (fields : Fields) (line : Text) : Fields :=
  if line = [] ∨ line.head? = some 0x23 then fields
  else
    let (key, value) := keyAndValue line
    if key = ascii "enabled" then { fields with enabled := value }
    else if key = ascii "protocol" then { fields with protocol := value }
    else if key = ascii "host" then { fields with host := value }
    else if key = ascii "port" then { fields with port := value }
    else fields

def Fields.start : Fields where
  enabled := ascii "0"
  protocol := ascii "http"
  host := []
  port := []

def readFields (content : Text) : Fields :=
  (readLines content).foldl Fields.readLine Fields.start

/-- What `load_conf` leaves in the variables. -/
structure Settings where
  enabled : Bool
  protocol : Protocol
  host : Text
  port : Text
  valid : Bool
  deriving DecidableEq

/-- `load_conf`, with the content of the file where there is one. -/
def loadConf : Option Text → Settings
  | none => { enabled := false, protocol := .http, host := [], port := [], valid := true }
  | some content =>
      let fields := readFields content
      let off := fun protocol valid =>
        { enabled := false, protocol, host := fields.host, port := fields.port, valid }
      match normalizeEnabled fields.enabled, Protocol.ofName fields.protocol with
      | none, protocol => off (protocol.getD .http) false
      | some _, none => off .http false
      | some false, some protocol => off protocol true
      | some true, some protocol =>
          if isHost fields.host && isPort fields.port then
            { off protocol true with enabled := true }
          else off protocol false

/-! ## The commands -/

def urlOf (protocol : Protocol) (host port : Text) : Text :=
  protocol.scheme ++ host ++ 0x3a :: port

def proxyUrl (conf : Option Text) : Option Text :=
  let settings := loadConf conf
  if settings.enabled && settings.valid then
    some (urlOf settings.protocol settings.host settings.port)
  else none

def bit (flag : Bool) : Text :=
  if flag then ascii "1" else ascii "0"

def assignment (name : String) (value : Text) : Text :=
  ascii name ++ equals :: value

def Settings.assignments (settings : Settings) : List Text :=
  [assignment "enabled" (bit settings.enabled), assignment "protocol" settings.protocol.name,
    assignment "host" settings.host, assignment "port" settings.port,
    assignment "valid" (bit settings.valid)]

def cmdGet (conf : Option Text) : Text :=
  unlines newline (loadConf conf).assignments

def bypass : Text :=
  ascii "localhost,127.0.0.1,::1"

def proxyVariables : List Text :=
  [ascii "http_proxy", ascii "https_proxy", ascii "HTTP_PROXY", ascii "HTTPS_PROXY",
    ascii "all_proxy", ascii "ALL_PROXY"]

def bypassVariables : List Text :=
  [ascii "no_proxy", ascii "NO_PROXY"]

def exportLine (name value : Text) : Text :=
  ascii "export " ++ name ++ equals :: quote :: value ++ [quote]

def unsetLine : Text :=
  ascii "unset http_proxy https_proxy HTTP_PROXY HTTPS_PROXY all_proxy ALL_PROXY"

/-- What `env` prints for a URL, or for none. -/
def envLines : Option Text → List Text
  | none => [unsetLine]
  | some url =>
      proxyVariables.map (exportLine · url) ++ bypassVariables.map (exportLine · bypass)

def cmdEnv (conf : Option Text) : Text :=
  unlines newline (envLines (proxyUrl conf))

/-- The arguments of `curl` for a URL, or for none. -/
def curlArgs : Option Text → List Text
  | none => [ascii "--noproxy", ascii "*"]
  | some url => [ascii "--proxy", url, ascii "--noproxy", bypass]

def cmdCurlArgs (conf : Option Text) : Text :=
  unlines newline (curlArgs (proxyUrl conf))

/-- The file that `set` writes, where it accepts its arguments. -/
def cmdSet (enabled protocol host port : Text) : Option Text :=
  match normalizeEnabled enabled,
      Protocol.ofName (if protocol = [] then ascii "http" else protocol) with
  | some flag, some protocol =>
      let accepted :=
        if flag then isHost host && isPort port
        else (host == [] || isHost host) && (port == [] || isPort port)
      if accepted then
        some (unlines newline [assignment "enabled" (bit flag), assignment "protocol" protocol.name,
          assignment "host" host, assignment "port" port])
      else none
  | _, _ => none

/-! ## The launcher -/

/-- The variables of `launch_apply_proxy` while it reads what `get` prints. -/
structure Reported where
  enabled : Text
  protocol : Text
  host : Text
  port : Text
  valid : Text

/-- `${line#name=}` -/
def valueOf (name : String) (line : Text) : Option Text :=
  if (assignment name []).isPrefixOf line then some (line.drop (assignment name []).length)
  else none

def Reported.readLine (reported : Reported) (line : Text) : Reported :=
  match valueOf "enabled" line, valueOf "protocol" line, valueOf "host" line,
      valueOf "port" line, valueOf "valid" line with
  | some value, _, _, _, _ => { reported with enabled := value }
  | _, some value, _, _, _ => { reported with protocol := value }
  | _, _, some value, _, _ => { reported with host := value }
  | _, _, _, some value, _ => { reported with port := value }
  | _, _, _, _, some value => { reported with valid := value }
  | _, _, _, _, _ => reported

def proxyHostOk : Text → Bool :=
  isHost

def proxyPortOk : Text → Bool :=
  isPort

/-- The URL that `launch_apply_proxy` exports. -/
def launchApplyProxy (got : Text) : Option Text :=
  let reported := (readLines got).foldl Reported.readLine ⟨[], [], [], [], []⟩
  if reported.valid = ascii "1" ∧ reported.enabled = ascii "1" then
    match Protocol.ofName reported.protocol with
    | none => none
    | some protocol =>
        if proxyHostOk reported.host && proxyPortOk reported.port then
          some (urlOf protocol reported.host reported.port)
        else none
  else none

/-! ## Inert values -/

/-- A byte that means nothing to the shell between single quotes. -/
def isInert (byte : UInt8) : Bool :=
  isUpper byte || isLower byte || isDigit byte || (ascii "._-:/[],").contains byte

/-- The line exports one of the variables, and its value is inert. -/
def Exports (line : Text) : Prop :=
  ∃ name ∈ proxyVariables ++ bypassVariables, ∃ value,
    line = exportLine name value ∧ ∀ byte ∈ value, isInert byte = true

theorem isInert_of_isDigit {byte : UInt8} (digit : isDigit byte = true) : isInert byte = true := by
  simp [isInert, digit]

theorem isInert_of_isNameByte {byte : UInt8} (allowed : isNameByte byte = true) :
    isInert byte = true := by
  have more : ∀ byte ∈ ascii "._-", (ascii "._-:/[],").contains byte = true := by decide +kernel
  simp only [isNameByte, isInert, Bool.or_eq_true] at allowed ⊢
  rcases allowed with class' | mark
  · exact .inl class'
  · exact .inr (more byte (List.contains_iff_mem.mp mark))

theorem isInert_of_isAddressByte {byte : UInt8} (allowed : isAddressByte byte = true) :
    isInert byte = true := by
  have more : ∀ byte ∈ ascii ":.", (ascii "._-:/[],").contains byte = true := by decide +kernel
  simp only [isAddressByte, isInert, isUpper, isLower, Bool.or_eq_true, Bool.and_eq_true,
    decide_eq_true_eq] at allowed ⊢
  rcases allowed with ((digit | ⟨low, high⟩) | ⟨low, high⟩) | mark
  · exact .inl (.inr digit)
  · exact .inl (.inl (.inl ⟨low, UInt8.le_trans high (by decide : (0x46 : UInt8) ≤ 0x5a)⟩))
  · exact .inl (.inl (.inr ⟨low, UInt8.le_trans high (by decide : (0x66 : UInt8) ≤ 0x7a)⟩))
  · exact .inr (more byte (List.contains_iff_mem.mp mark))

theorem bracketed_eq_some {host inner : Text} (found : bracketed host = some inner) :
    host = 0x5b :: inner ++ [0x5d] := by
  rw [bracketed.eq_def] at found
  split at found
  · split at found
    · rename_i rest ends
      rcases List.getLast?_eq_some_iff.mp ends with ⟨front, rfl⟩
      rw [List.dropLast_concat, Option.some_inj] at found
      rw [found, List.cons_append]
    · exact nomatch found
  · exact nomatch found

theorem isInert_of_isHost {host : Text} (isHost' : isHost host = true) :
    ∀ byte ∈ host, isInert byte = true := by
  rw [isHost, Bool.and_eq_true] at isHost'
  intro byte member
  have allowed := isHost'.2
  split at allowed
  · rename_i inner found
    rw [Bool.and_eq_true, List.all_eq_true] at allowed
    rw [bracketed_eq_some found] at member
    simp only [List.cons_append, List.mem_cons, List.mem_append, List.mem_nil_iff, or_false]
      at member
    rcases member with rfl | inside | rfl
    · decide
    · exact isInert_of_isAddressByte (allowed.2 byte inside)
    · decide
  · exact isInert_of_isNameByte (List.all_eq_true.mp allowed byte member)

theorem isDigit_of_isPort {port : Text} (isPort' : isPort port = true) :
    ∀ byte ∈ port, isDigit byte = true := by
  rw [isPort, Bool.and_eq_true, Bool.and_eq_true] at isPort'
  exact List.all_eq_true.mp isPort'.1.2

theorem isInert_of_isPort {port : Text} (isPort' : isPort port = true) :
    ∀ byte ∈ port, isInert byte = true := fun byte member =>
  isInert_of_isDigit (isDigit_of_isPort isPort' byte member)

theorem isInert_urlOf (protocol : Protocol) {host port : Text} (isHost' : isHost host = true)
    (isPort' : isPort port = true) : ∀ byte ∈ urlOf protocol host port, isInert byte = true := by
  intro byte member
  rw [urlOf, List.mem_append, List.mem_append, List.mem_cons] at member
  rcases member with (scheme | inHost) | rfl | inPort
  · have inert : ∀ byte ∈ protocol.scheme, isInert byte = true := by
      cases protocol <;> decide +kernel
    exact inert byte scheme
  · exact isInert_of_isHost isHost' byte inHost
  · decide
  · exact isInert_of_isPort isPort' byte inPort

/-- What is on is valid. -/
theorem loadConf_enabled {conf : Option Text} (on : (loadConf conf).enabled = true) :
    (loadConf conf).valid = true ∧ isHost (loadConf conf).host = true ∧
      isPort (loadConf conf).port = true := by
  cases conf with
  | none => exact nomatch on
  | some content =>
      revert on
      simp only [loadConf]
      split
      · exact fun on => nomatch on
      · exact fun on => nomatch on
      · exact fun on => nomatch on
      · split
        · rename_i accepted
          rw [Bool.and_eq_true] at accepted
          exact fun _ => ⟨rfl, accepted⟩
        · exact fun on => nomatch on

theorem isInert_of_proxyUrl {conf : Option Text} {url : Text} (on : proxyUrl conf = some url) :
    ∀ byte ∈ url, isInert byte = true := by
  rw [proxyUrl] at on
  split at on
  · rename_i both
    rw [Bool.and_eq_true] at both
    rcases loadConf_enabled both.1 with ⟨_, host, port⟩
    rw [← Option.some_inj.mp on]
    exact isInert_urlOf _ host port
  · exact nomatch on

theorem exports_of_mem_envLines {url : Option Text}
    (inert : ∀ text, url = some text → ∀ byte ∈ text, isInert byte = true) {line : Text}
    (member : line ∈ envLines url) : line = unsetLine ∨ Exports line := by
  cases url with
  | none => exact .inl (List.mem_singleton.mp member)
  | some url =>
      rw [envLines, List.mem_append, List.mem_map, List.mem_map] at member
      rcases member with ⟨name, known, rfl⟩ | ⟨name, known, rfl⟩
      · exact .inr ⟨name, List.mem_append_left _ known, url, rfl, inert url rfl⟩
      · have inert : bypass.all isInert = true := by decide
        exact .inr ⟨name, List.mem_append_right _ known, bypass, rfl, List.all_eq_true.mp inert⟩

/-! ## Lines that are read back -/

/-- A text of one line, as `read` gives it. -/
def IsLine (text : Text) : Prop :=
  ∀ byte ∈ text, byte ≠ 0 ∧ byte ≠ newline

theorem IsLine.append {front back : Text} (first : IsLine front) (second : IsLine back) :
    IsLine (front ++ back) := fun byte member =>
  (List.mem_append.mp member).elim (first byte) (second byte)

theorem isLine_of_isInert {text : Text} (inert : ∀ byte ∈ text, isInert byte = true) :
    IsLine text := by
  intro byte member
  have isInert' := inert byte member
  constructor <;> rintro rfl <;> exact absurd isInert' (by decide)

theorem readLines_unlines {texts : List Text} (clean : ∀ text ∈ texts, IsLine text) :
    readLines (unlines newline texts) = texts := by
  have kept : (unlines newline texts).filter (· ≠ 0) = unlines newline texts := by
    refine List.filter_eq_self.mpr fun byte member => decide_eq_true ?_
    rcases mem_unlines member with rfl | ⟨text, inside, member⟩
    · decide
    · exact (clean text inside byte member).1
  rw [readLines, kept]
  exact lines_unlines (fun text inside byte member =>
    beq_false_of_ne (clean text inside byte member).2) (beq_self_eq_true newline)

theorem isLine_of_mem_readLines {content line : Text} (member : line ∈ readLines content) :
    IsLine line := by
  intro byte inside
  rcases mem_of_mem_lines member inside with ⟨inText, unbroken⟩
  exact ⟨of_decide_eq_true (List.mem_filter.mp inText).2, ne_of_beq_false unbroken⟩

theorem isLine_value {line : Text} (isLine : IsLine line) : IsLine (keyAndValue line).2 := by
  rw [keyAndValue]
  cases found : cut equals line with
  | none => exact isLine
  | some parts =>
      rw [Option.getD_some]
      intro byte member
      refine isLine byte ?_
      rw [(cut_eq_some.mp found).1]
      exact List.mem_append_right _ (List.mem_cons_of_mem _ member)

/-- A line sets one field to its value, or none. -/
theorem Fields.readLine_cases (fields : Fields) (line : Text) :
    fields.readLine line = fields ∨
      fields.readLine line = { fields with enabled := (keyAndValue line).2 } ∨
      fields.readLine line = { fields with protocol := (keyAndValue line).2 } ∨
      fields.readLine line = { fields with host := (keyAndValue line).2 } ∨
      fields.readLine line = { fields with port := (keyAndValue line).2 } := by
  unfold Fields.readLine
  simp only
  repeat' split
  all_goals simp

theorem isLine_fields (content : Text) :
    IsLine (readFields content).host ∧ IsLine (readFields content).port := by
  rw [readFields]
  refine List.foldlRecOn (motive := fun fields : Fields => IsLine fields.host ∧ IsLine fields.port)
    _ _ ?_ ?_
  · exact ⟨fun _ never => (List.not_mem_nil never).elim, fun _ never => (List.not_mem_nil never).elim⟩
  · intro fields clean line member
    have value := isLine_value (isLine_of_mem_readLines member)
    rcases fields.readLine_cases line with same | same | same | same | same <;> rw [same]
    · exact clean
    · exact clean
    · exact clean
    · exact ⟨value, clean.2⟩
    · exact ⟨clean.1, value⟩

theorem isLine_nil : IsLine [] := fun _ never => (List.not_mem_nil never).elim

theorem isLine_loadConf (conf : Option Text) :
    IsLine (loadConf conf).host ∧ IsLine (loadConf conf).port := by
  cases conf with
  | none => exact ⟨isLine_nil, isLine_nil⟩
  | some content =>
      have clean := isLine_fields content
      simp only [loadConf]
      repeat' split
      all_goals exact clean

/-! ## The launcher reads the same settings -/

theorem valueOf_same (name : String) (value : Text) :
    valueOf name (assignment name value) = some value := by
  have split : assignment name value = assignment name [] ++ value := by
    simp [assignment]
  rw [valueOf, split, if_pos, List.drop_left]
  exact List.isPrefixOf_iff_prefix.mpr (List.prefix_append _ _)

theorem valueOf_other {name other : String} (value : Text) (plain : equals ∉ ascii name)
    (otherPlain : equals ∉ ascii other) (differs : ascii name ≠ ascii other) :
    valueOf name (assignment other value) = none := by
  rw [valueOf, if_neg]
  intro begins
  rcases List.isPrefixOf_iff_prefix.mp begins with ⟨rest, same⟩
  have cuts : cut equals (assignment name [] ++ rest) = some (ascii name, rest) := by
    rw [assignment, List.append_assoc]
    exact cut_append plain rest
  rw [same, assignment, cut_append otherPlain, Option.some_inj, Prod.mk.injEq] at cuts
  exact differs cuts.1.symm

theorem isLine_assignment {name : String} {value : Text} (clean : IsLine (ascii name))
    (isLine : IsLine value) : IsLine (assignment name value) := by
  refine clean.append fun byte member => ?_
  rcases List.mem_cons.mp member with rfl | inside
  · decide
  · exact isLine byte inside

theorem isLine_ascii {name : String}
    (clean : (ascii name).all (fun byte => byte ≠ 0 ∧ byte ≠ newline) = true) :
    IsLine (ascii name) := fun byte member =>
  of_decide_eq_true (List.all_eq_true.mp clean byte member)

theorem isLine_bit (flag : Bool) : IsLine (bit flag) := by
  cases flag <;> exact isLine_ascii (by decide)

theorem isLine_name (protocol : Protocol) : IsLine protocol.name := by
  cases protocol <;> exact isLine_ascii (by decide)

theorem isLine_of_mem_assignments {conf : Option Text} {line : Text}
    (member : line ∈ (loadConf conf).assignments) : IsLine line := by
  rcases isLine_loadConf conf with ⟨host, port⟩
  simp only [Settings.assignments, List.mem_cons, List.mem_nil_iff, or_false] at member
  rcases member with rfl | rfl | rfl | rfl | rfl
  · exact isLine_assignment (isLine_ascii (by decide)) (isLine_bit _)
  · exact isLine_assignment (isLine_ascii (by decide)) (isLine_name _)
  · exact isLine_assignment (isLine_ascii (by decide)) host
  · exact isLine_assignment (isLine_ascii (by decide)) port
  · exact isLine_assignment (isLine_ascii (by decide)) (isLine_bit _)

/-- The launcher finds the settings that `get` prints. -/
theorem foldl_assignments (settings : Settings) :
    settings.assignments.foldl Reported.readLine ⟨[], [], [], [], []⟩ =
      { enabled := bit settings.enabled, protocol := settings.protocol.name,
        host := settings.host, port := settings.port, valid := bit settings.valid } := by
  simp (disch := decide) only [Settings.assignments, List.foldl_cons, List.foldl_nil,
    Reported.readLine, valueOf_same, valueOf_other]

theorem ofName_name (protocol : Protocol) : Protocol.ofName protocol.name = some protocol := by
  cases protocol <;> rfl

theorem bit_eq_one {flag : Bool} : bit flag = ascii "1" ↔ flag = true := by
  cases flag <;> decide

theorem launchApplyProxy_cmdGet (conf : Option Text) :
    launchApplyProxy (cmdGet conf) = proxyUrl conf := by
  rw [launchApplyProxy, cmdGet, readLines_unlines fun line => isLine_of_mem_assignments,
    foldl_assignments]
  simp only [ofName_name, bit_eq_one, proxyHostOk, proxyPortOk, proxyUrl]
  by_cases on : (loadConf conf).enabled = true
  · rcases loadConf_enabled on with ⟨valid, host, port⟩
    simp only [on, valid, host, port, Bool.and_self, and_self, if_true]
  · simp only [on, and_false, Bool.false_and, if_false, Bool.false_eq_true]

/-! ## What is set is read back -/

theorem keyAndValue_assignment {name : String} (value : Text) (plain : equals ∉ ascii name) :
    keyAndValue (assignment name value) = (ascii name, value) := by
  rw [keyAndValue, assignment, cut_append plain, Option.getD_some]

/-- The lines that `set` writes. -/
def writtenLines (flag : Bool) (protocol : Protocol) (host port : Text) : List Text :=
  [assignment "enabled" (bit flag), assignment "protocol" protocol.name, assignment "host" host,
    assignment "port" port]

theorem foldl_writtenLines (flag : Bool) (protocol : Protocol) (host port : Text) :
    (writtenLines flag protocol host port).foldl Fields.readLine Fields.start =
      { enabled := bit flag, protocol := protocol.name, host, port } := by
  have named (name : String) (value : Text) (begins : (ascii name).head?.any (· ≠ 0x23) = true) :
      ¬(assignment name value = [] ∨ (assignment name value).head? = some 0x23) := by
    rw [assignment]
    cases isName : ascii name with
    | nil => simp [isName] at begins
    | cons first rest => simpa [isName] using begins
  have apart : ascii "protocol" ≠ ascii "enabled" ∧ ascii "host" ≠ ascii "enabled" ∧
      ascii "host" ≠ ascii "protocol" ∧ ascii "port" ≠ ascii "enabled" ∧
      ascii "port" ≠ ascii "protocol" ∧ ascii "port" ≠ ascii "host" := by decide
  rcases apart with ⟨protocolEnabled, hostEnabled, hostProtocol, portEnabled, portProtocol, portHost⟩
  simp only [writtenLines, List.foldl_cons, List.foldl_nil, Fields.readLine,
    named "enabled" _ (by decide), named "protocol" _ (by decide), named "host" _ (by decide),
    named "port" _ (by decide), if_false, keyAndValue_assignment _ (by decide : equals ∉ ascii "enabled"),
    keyAndValue_assignment _ (by decide : equals ∉ ascii "protocol"),
    keyAndValue_assignment _ (by decide : equals ∉ ascii "host"),
    keyAndValue_assignment _ (by decide : equals ∉ ascii "port"), if_true, protocolEnabled,
    hostEnabled, hostProtocol, portEnabled, portProtocol, portHost]

theorem isLine_of_empty_or_host {host : Text} (accepted : (host == [] || isHost host) = true) :
    IsLine host := by
  rw [Bool.or_eq_true, beq_iff_eq] at accepted
  rcases accepted with rfl | isHost'
  · exact isLine_nil
  · exact isLine_of_isInert (isInert_of_isHost isHost')

theorem isLine_of_empty_or_port {port : Text} (accepted : (port == [] || isPort port) = true) :
    IsLine port := by
  rw [Bool.or_eq_true, beq_iff_eq] at accepted
  rcases accepted with rfl | isPort'
  · exact isLine_nil
  · exact isLine_of_isInert (isInert_of_isPort isPort')

theorem readFields_written (flag : Bool) (protocol : Protocol) {host port : Text}
    (hostLine : IsLine host) (portLine : IsLine port) :
    readFields (unlines newline (writtenLines flag protocol host port)) =
      { enabled := bit flag, protocol := protocol.name, host, port } := by
  have clean : ∀ line ∈ writtenLines flag protocol host port, IsLine line := by
    intro line member
    simp only [writtenLines, List.mem_cons, List.mem_nil_iff, or_false] at member
    rcases member with rfl | rfl | rfl | rfl
    · exact isLine_assignment (isLine_ascii (by decide)) (isLine_bit _)
    · exact isLine_assignment (isLine_ascii (by decide)) (isLine_name _)
    · exact isLine_assignment (isLine_ascii (by decide)) hostLine
    · exact isLine_assignment (isLine_ascii (by decide)) portLine
  rw [readFields, readLines_unlines clean, foldl_writtenLines]

theorem normalizeEnabled_bit (flag : Bool) : normalizeEnabled (bit flag) = some flag := by
  cases flag <;> decide

/-- What `set` accepts is valid when it is read back. -/
theorem loadConf_cmdSet {enabled protocol host port file : Text}
    (accepted : cmdSet enabled protocol host port = some file) :
    ∃ flag kind, normalizeEnabled enabled = some flag ∧
      Protocol.ofName (if protocol = [] then ascii "http" else protocol) = some kind ∧
      loadConf (some file) = { enabled := flag, protocol := kind, host, port, valid := true } := by
  rw [cmdSet] at accepted
  split at accepted
  · rename_i flag kind isFlag isKind
    refine ⟨flag, kind, isFlag, isKind, ?_⟩
    cases flag with
    | true =>
        simp only [if_true] at accepted
        split at accepted
        · rename_i valid
          have both := Bool.and_eq_true_iff.mp valid
          have read := readFields_written true kind
            (isLine_of_isInert (isInert_of_isHost both.1))
            (isLine_of_isInert (isInert_of_isPort both.2))
          rw [writtenLines, Option.some_inj.mp accepted] at read
          simp only [loadConf, read, normalizeEnabled_bit, ofName_name, valid, if_true]
        · exact nomatch accepted
    | false =>
        simp only [Bool.false_eq_true, if_false] at accepted
        split at accepted
        · rename_i valid
          have both := Bool.and_eq_true_iff.mp valid
          have read := readFields_written false kind (isLine_of_empty_or_host both.1)
            (isLine_of_empty_or_port both.2)
          rw [writtenLines, Option.some_inj.mp accepted] at read
          simp only [loadConf, read, normalizeEnabled_bit, ofName_name]
        · exact nomatch accepted
  · exact nomatch accepted

theorem isLine_exportLine {line : Text} (isExport : Exports line) : IsLine line := by
  rcases isExport with ⟨name, known, value, rfl, inert⟩
  have clean : (proxyVariables ++ bypassVariables).all
      (·.all fun byte => byte ≠ 0 ∧ byte ≠ newline) = true := by decide
  have names : ∀ name ∈ proxyVariables ++ bypassVariables, IsLine name :=
    fun name known byte member =>
      of_decide_eq_true (List.all_eq_true.mp (List.all_eq_true.mp clean name known) byte member)
  refine (((isLine_ascii (by decide)).append (names name known)).append ?_).append ?_
  · intro byte member
    rcases List.mem_cons.mp member with rfl | inside
    · decide
    · rcases List.mem_cons.mp inside with rfl | inValue
      · decide
      · exact isLine_of_isInert inert byte inValue
  · unfold IsLine
    decide +kernel

/-- Nothing in the file reaches the shell but as an inert value, all readers of the file use the
same URL or none, and what is set is read back as valid. -/
theorem settings_cannot_inject (conf : Option Text) :
    (∀ line ∈ lines (· == newline) (cmdEnv conf), line = unsetLine ∨ Exports line) ∧
    (∃ url, cmdEnv conf = unlines newline (envLines url) ∧
      cmdCurlArgs conf = unlines newline (curlArgs url) ∧
      launchApplyProxy (cmdGet conf) = url) ∧
    ∀ enabled protocol host port file, cmdSet enabled protocol host port = some file →
      ∃ flag kind, normalizeEnabled enabled = some flag ∧
        Protocol.ofName (if protocol = [] then ascii "http" else protocol) = some kind ∧
        cmdGet (some file) = unlines newline
          [assignment "enabled" (bit flag), assignment "protocol" kind.name,
            assignment "host" host, assignment "port" port, assignment "valid" (ascii "1")] := by
  refine ⟨?_, ⟨proxyUrl conf, rfl, rfl, launchApplyProxy_cmdGet conf⟩, ?_⟩
  · have printed : ∀ line ∈ envLines (proxyUrl conf), line = unsetLine ∨ Exports line :=
      fun line => exports_of_mem_envLines fun _ on => isInert_of_proxyUrl on
    have clean : ∀ line ∈ envLines (proxyUrl conf), IsLine line := by
      intro line member
      rcases printed line member with rfl | isExport
      · exact isLine_ascii (by decide)
      · exact isLine_exportLine isExport
    rw [cmdEnv, lines_unlines (fun line member byte inside =>
      beq_false_of_ne (clean line member byte inside).2) (beq_self_eq_true newline)]
    exact printed
  · intro enabled protocol host port file accepted
    rcases loadConf_cmdSet accepted with ⟨flag, kind, isFlag, isKind, read⟩
    exact ⟨flag, kind, isFlag, isKind, by rw [cmdGet, read]; rfl⟩

end Zlyme.Net.Proxy
