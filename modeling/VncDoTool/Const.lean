import Mathlib.Data.List.Basic
import Mathlib.Data.Int.Notation

/-!
# Protocol numbers

The enumerations of `const.py` that the modelled code reads. An enumeration member is also
the integer it stands for, so numbers off the wire stay integers and are compared with
`value`; `lookup` finds the member a number belongs to and `describe` names it in a message.
-/

namespace VncDoTool

/-- The security types of the handshake, RFC 6143 §7.1.2. -/
inductive AuthTypes : Type
  | invalid | none | vncAuthentication | realvnc3 | realvnc4 | rsaAes | rsaAesUnencrypted
  | realvnc7 | realvnc8 | realvnc9 | realvnc10 | realvnc11 | realvnc12 | rsaAes2step
  | realvnc14 | realvnc15 | tight | ultra | tls | vencrypt | sasl | md5 | xvp | secureTunnel
  | integratedSsh | diffieHellman | apple31 | apple32 | apple33 | apple34 | apple35 | mslogon2
  | realvnc128 | rsaAes256 | rsaAes256Unencrypted | realvnc131 | realvnc132 | rsaAes2562step
  | realvnc134 | realvnc192
  deriving DecidableEq, Repr

namespace AuthTypes

/-- The number a member stands for on the wire. -/
def value : AuthTypes → ℕ
  | .invalid => 0 | .none => 1 | .vncAuthentication => 2 | .realvnc3 => 3 | .realvnc4 => 4
  | .rsaAes => 5 | .rsaAesUnencrypted => 6 | .realvnc7 => 7 | .realvnc8 => 8 | .realvnc9 => 9
  | .realvnc10 => 10 | .realvnc11 => 11 | .realvnc12 => 12 | .rsaAes2step => 13
  | .realvnc14 => 14 | .realvnc15 => 15 | .tight => 16 | .ultra => 17 | .tls => 18
  | .vencrypt => 19 | .sasl => 20 | .md5 => 21 | .xvp => 22 | .secureTunnel => 23
  | .integratedSsh => 24 | .diffieHellman => 30 | .apple31 => 31 | .apple32 => 32
  | .apple33 => 33 | .apple34 => 34 | .apple35 => 35 | .mslogon2 => 113 | .realvnc128 => 128
  | .rsaAes256 => 129 | .rsaAes256Unencrypted => 130 | .realvnc131 => 131 | .realvnc132 => 132
  | .rsaAes2562step => 133 | .realvnc134 => 134 | .realvnc192 => 192

/-- The name a member is declared under. -/
def name : AuthTypes → String
  | .invalid => "INVALID"
  | .none => "NONE"
  | .vncAuthentication => "VNC_AUTHENTICATION"
  | .realvnc3 => "REALVNC_3"
  | .realvnc4 => "REALVNC_4"
  | .rsaAes => "RSA_AES"
  | .rsaAesUnencrypted => "RSA_AES_UNENCRYPTED"
  | .realvnc7 => "REALVNC_7"
  | .realvnc8 => "REALVNC_8"
  | .realvnc9 => "REALVNC_9"
  | .realvnc10 => "REALVNC_10"
  | .realvnc11 => "REALVNC_11"
  | .realvnc12 => "REALVNC_12"
  | .rsaAes2step => "RSA_AES_2STEP"
  | .realvnc14 => "REALVNC_14"
  | .realvnc15 => "REALVNC_15"
  | .tight => "TIGHT"
  | .ultra => "ULTRA"
  | .tls => "TLS"
  | .vencrypt => "VENCRYPT"
  | .sasl => "SASL"
  | .md5 => "MD5"
  | .xvp => "XVP"
  | .secureTunnel => "SECURE_TUNNEL"
  | .integratedSsh => "INTEGRATED_SSH"
  | .diffieHellman => "DIFFIE_HELLMAN"
  | .apple31 => "APPLE_31"
  | .apple32 => "APPLE_32"
  | .apple33 => "APPLE_33"
  | .apple34 => "APPLE_34"
  | .apple35 => "APPLE_35"
  | .mslogon2 => "MSLOGON2"
  | .realvnc128 => "REALVNC_128"
  | .rsaAes256 => "RSA_AES256"
  | .rsaAes256Unencrypted => "RSA_AES256_UNENCRYPTED"
  | .realvnc131 => "REALVNC_131"
  | .realvnc132 => "REALVNC_132"
  | .rsaAes2562step => "RSA_AES256_2STEP"
  | .realvnc134 => "REALVNC_134"
  | .realvnc192 => "REALVNC_192"

/-- Every member, in declaration order. -/
def members : List AuthTypes :=
  [.invalid, .none, .vncAuthentication, .realvnc3, .realvnc4, .rsaAes, .rsaAesUnencrypted,
    .realvnc7, .realvnc8, .realvnc9, .realvnc10, .realvnc11, .realvnc12, .rsaAes2step,
    .realvnc14, .realvnc15, .tight, .ultra, .tls, .vencrypt, .sasl, .md5, .xvp, .secureTunnel,
    .integratedSsh, .diffieHellman, .apple31, .apple32, .apple33, .apple34, .apple35,
    .mslogon2, .realvnc128, .rsaAes256, .rsaAes256Unencrypted, .realvnc131, .realvnc132,
    .rsaAes2562step, .realvnc134, .realvnc192]

/-- The member with a given number, `none` for a number no member has. -/
def lookup (n : ℕ) : Option AuthTypes := members.find? fun m => m.value = n

/-- What to call a member in a message: its registered title where it has one. -/
def label : AuthTypes → String
  | .invalid => "Invalid"
  | .none => "None"
  | .vncAuthentication => "VNC Authentication"
  | .rsaAes => "RSA-AES"
  | .rsaAesUnencrypted => "RSA-AES Unencrypted"
  | .rsaAes2step => "RSA-AES Two-step"
  | .tight => "Tight"
  | .ultra => "Ultra"
  | .tls => "TLS"
  | .vencrypt => "VeNCrypt"
  | .sasl => "SASL"
  | .md5 => "MD5 hash authentication"
  | .xvp => "xvp"
  | .secureTunnel => "Secure Tunnel"
  | .integratedSsh => "Integrated SSH"
  | .diffieHellman => "Diffie-Hellman"
  | .mslogon2 => "MSLogonII"
  | .rsaAes256 => "RSA-AES-256"
  | .rsaAes256Unencrypted => "RSA-AES-256 Unencrypted"
  | .rsaAes2562step => "RSA-AES-256 Two-step"
  | m => m.name

end AuthTypes

/-- The client-to-server messages the proxy parses, RFC 6143 §7.5. -/
inductive MsgC2S : Type
  | setPixelFormat | setEncoding | framebufferUpdateRequest | keyEvent | pointerEvent
  | clientCutText | clientFence | qemuClientMessage
  deriving DecidableEq, Repr

namespace MsgC2S

/-- The number a member stands for on the wire. -/
def value : MsgC2S → ℕ
  | .setPixelFormat => 0 | .setEncoding => 2 | .framebufferUpdateRequest => 3 | .keyEvent => 4
  | .pointerEvent => 5 | .clientCutText => 6 | .clientFence => 248 | .qemuClientMessage => 255

/-- The parsed message type with a given number. -/
def lookup : ℕ → Option MsgC2S
  | 0 => some .setPixelFormat
  | 2 => some .setEncoding
  | 3 => some .framebufferUpdateRequest
  | 4 => some .keyEvent
  | 5 => some .pointerEvent
  | 6 => some .clientCutText
  | 248 => some .clientFence
  | 255 => some .qemuClientMessage
  | _ => none

@[simp] theorem lookup_value (m : MsgC2S) : lookup m.value = some m := by
  cases m <;> rfl

end MsgC2S

/-- The one QEMU client message the proxy parses: the extended key event. -/
def QemuClientMessage.extendedKeyEvent : ℕ := 0

/-- How a message names a protocol number: vendor blocks in hexadecimal, the rest in decimal. -/
def named (label : String) (value : ℤ) : String :=
  let shown :=
    if 0x10000 ≤ value then "0x" ++ String.ofList (Nat.toDigits 16 value.toNat) else toString value
  s!"{label} ({shown})"

/-- What a message calls a security type, `str(AuthTypes.lookup(n))`. -/
def AuthTypes.describe (n : ℕ) : String := named (((lookup n).map label).getD "unknown") n

/-- The subtypes of VeNCrypt, security type 19. -/
inductive VeNCryptSubtypes : Type
  | plain | tlsNone | tlsVnc | tlsPlain | x509None | x509Vnc | x509Plain | tlsSasl | x509Sasl
  | ident | tlsIdent | x509Ident
  deriving DecidableEq, Repr

namespace VeNCryptSubtypes

/-- The number a member stands for on the wire. -/
def value : VeNCryptSubtypes → ℕ
  | .plain => 256 | .tlsNone => 257 | .tlsVnc => 258 | .tlsPlain => 259 | .x509None => 260
  | .x509Vnc => 261 | .x509Plain => 262 | .tlsSasl => 263 | .x509Sasl => 264 | .ident => 265
  | .tlsIdent => 266 | .x509Ident => 267

/-- What to call a member in a message. -/
def label : VeNCryptSubtypes → String
  | .plain => "Plain"
  | .tlsNone => "TLSNone"
  | .tlsVnc => "TLSVnc"
  | .tlsPlain => "TLSPlain"
  | .x509None => "X509None"
  | .x509Vnc => "X509Vnc"
  | .x509Plain => "X509Plain"
  | .tlsSasl => "TLSSASL"
  | .x509Sasl => "X509SASL"
  | .ident => "Ident"
  | .tlsIdent => "TLSIdent"
  | .x509Ident => "X509Ident"

/-- Every member, in declaration order. -/
def members : List VeNCryptSubtypes :=
  [.plain, .tlsNone, .tlsVnc, .tlsPlain, .x509None, .x509Vnc, .x509Plain, .tlsSasl, .x509Sasl,
    .ident, .tlsIdent, .x509Ident]

/-- The member with a given number, `none` for a number no member has. -/
def lookup (n : ℕ) : Option VeNCryptSubtypes := members.find? fun m => m.value = n

/-- What a message calls a subtype, `str(VeNCryptSubtypes.lookup(n))`. -/
def describe (n : ℕ) : String := named (((lookup n).map label).getD "unknown") n

end VeNCryptSubtypes

/-- The server-to-client messages, RFC 6143 §7.6, by number. -/
def MsgS2C.names : List (ℕ × String) :=
  [(0, "FRAMEBUFFER_UPDATE"), (1, "SET_COLOUR_MAP_ENTRIES"), (2, "BELL"), (3, "SERVER_CUT_TEXT"),
    (4, "RESIZE_FRAME_BUFFER_4"), (5, "KEY_FRAME_UPDATE"), (6, "ULTRA_6"), (7, "FILE_TRANSFER"),
    (8, "ULTRA_8"), (9, "ULTRA_9"), (10, "ULTRA_10"), (11, "TEXT_CHAT"), (12, "ULTRA_12"),
    (13, "KEEP_ALIVE"), (14, "ULTRA_14"), (15, "RESIZE_FRAME_BUFFER_15"), (127, "VMWARE_127"),
    (128, "CAR_CONNECTIVITY"), (150, "END_OF_CONTINUOUS_UPDATES"), (173, "SERVER_STATE"),
    (248, "SERVER_FENCE"), (249, "OLIVE_CALL_CONTROL"), (250, "XVP_SERVER_MESSAGE"),
    (252, "TIGHT"), (253, "GII_SERVER_MESSAGE"), (254, "VMWARE_254"), (255, "QEMU_SERVER_MESSAGE")]

/-- What a message calls a server message, `str(MsgS2C.lookup(n))`. -/
def MsgS2C.describe (n : ℕ) : String := named ((names.lookup n).getD "unknown") n

namespace MsgS2C

def framebufferUpdate : ℕ := 0
def setColourMapEntries : ℕ := 1
def bell : ℕ := 2
def serverCutText : ℕ := 3
def serverFence : ℕ := 248

end MsgS2C

/-- The encoding types by number. The members declared past the signed range keep the number they
are declared with, which no rectangle header can hold. -/
def Encoding.names : List (ℤ × String) :=
  [(0, "RAW"), (1, "COPY_RECTANGLE"), (2, "RRE"), (4, "CORRE"), (5, "HEXTILE"), (6, "ZLIB"),
    (7, "TIGHT"), (8, "ZLIBHEX"), (9, "ULTRA"), (10, "ULTRA2"), (15, "TRLE"), (16, "ZRLE"),
    (17, "HITACHI_ZYWRLE"), (20, "H264"), (21, "JPEG"), (22, "JRLE"), (50, "OPEN_H264"),
    (1000, "APPLE_1000"), (1001, "APPLE_1001"), (1002, "APPLE_1002"), (1011, "APPLE_1011"),
    (1024, "REAL_1024"), (1100, "APPLE_1100"), (1101, "APPLE_1101"), (1102, "APPLE_1102"),
    (1103, "APPLE_1103"), (1104, "APPLE_1104"), (1105, "APPLE_1105"), (-1, "TIGHT_1"),
    (-23, "JPEG_23"), (-24, "JPEG_24"), (-25, "JPEG_25"), (-26, "JPEG_26"), (-27, "JPEG_27"),
    (-28, "JPEG_28"), (-29, "JPEG_29"), (-30, "JPEG_30"), (-31, "JPEG_31"), (-32, "JPEG_32"),
    (-33, "TIGHT_33"), (-219, "LIBVNCSERVER_219"), (-220, "LIBVNCSERVER_220"),
    (-221, "LIBVNCSERVER_221"), (-222, "LIBVNCSERVER_222"), (-223, "PSEUDO_DESKTOP_SIZE"),
    (-224, "PSEUDO_LAST_RECT"), (-225, "POINTER_POS"), (-226, "TIGHT_226"),
    (-232, "PSEUDO_POINTER_POS"), (-233, "TIGHT_233"), (-239, "PSEUDO_CURSOR"),
    (-240, "PSEUDO_X_CURSOR"), (-241, "TIGHT_241"), (-247, "PSEUDO_COMPRESSION_LEVEL_247"),
    (-248, "PSEUDO_COMPRESSION_LEVEL_248"), (-249, "PSEUDO_COMPRESSION_LEVEL_249"),
    (-250, "PSEUDO_COMPRESSION_LEVEL_250"), (-251, "PSEUDO_COMPRESSION_LEVEL_251"),
    (-252, "PSEUDO_COMPRESSION_LEVEL_252"), (-253, "PSEUDO_COMPRESSION_LEVEL_253"),
    (-254, "PSEUDO_COMPRESSION_LEVEL_254"), (-255, "PSEUDO_COMPRESSION_LEVEL_255"),
    (-256, "PSEUDO_COMPRESSION_LEVEL_256"), (-257, "PSEUDO_QEMU_POINTER_MODTION_CHANGE"),
    (-258, "PSEUDO_QEMU_EXTENDED_KEY_EVENT"), (-259, "PSEUDO_QEMU_AUDIO"), (-260, "TIGHT_PNG"),
    (-261, "PSEUDO_QEMU_LED_STATE"), (-262, "QEMU_262"), (-273, "VMWARE_273"),
    (-305, "PSEUDO_GII"), (-306, "POPA"), (-307, "PSEUDO_DESKTOP_NAME"),
    (-308, "PSEUDO_EXTENDED_DESKTOP_SIZE"), (-309, "PSEUDO_XVO"), (-310, "OLIVE_CALL_CONTROL"),
    (-311, "CLIENT_REDIRECT"), (-312, "PSEUDO_FENCE"), (-313, "PSEUDO_CONTINUOUS_UPDATES"),
    (-314, "PSEUDO_CURSOR_WITH_ALPHA"), (-412, "PSEUDO_JPEG_FINE_GRAINED_QUALITY_LEVEL"),
    (-523, "CAR_CONNECTIVITY_523"), (-763, "PSEUDO_JPEG_SUBSAMLING_LEVEL"),
    (1211250228, "VA_H264"), (1464686080, "VMWARE_0X574D5600"),
    (1464686180, "PSEUDO_VMWARE_CURSOR"), (1464686181, "PSEUDO_VMWARE_CURSOR_STATE"),
    (1464686182, "PSEUDO_VMWARE_CURSOR_POSITION"), (1464686183, "PSEUDO_VMWARE_KEY_REPEAT"),
    (1464686184, "PSEUDO_VMWARE_LED_STATE"), (1464686185, "PSEUDO_VMWARE_DISPLAY_MODE_CHANGE"),
    (1464686186, "PSEUDO_VMWARE_VIRTUAL_MACHINE_STATE"), (3231835598, "PSEUDO_EXTENDED_CLIPBOARD"),
    (3231835599, "PLUGIN_STREAMING"), (4294836224, "KEYBOARD_LED_STATE"),
    (4294836225, "SUPPORTED_MESSAGES"), (4294836226, "SUPPORTED_ENCODINGS"),
    (4294836227, "SERVER_IDENTITY"), (4294836228, "LIBVNCSERVER_0XFFFE0004"),
    (4294901760, "CACHE"), (4294901761, "CACHE_ENABLE"), (4294901762, "XOR_ZLIB"),
    (4294901763, "XOR_MONO_RECT_ZLIB"), (4294901764, "XOR_MULTI_COLOR_ZLIB"),
    (4294901765, "SOLID_COLOR"), (4294901766, "XOR_ENABLE"), (4294901767, "CACHE_ZIP"),
    (4294901768, "SOL_MONO_ZIP"), (4294901769, "ULTRA_ZIP"), (4294934528, "SERVER_STATE"),
    (4294934529, "ENABLE_KEEP_ALIVE"), (4294934530, "FTP_PROTOCOl_VERSION"), (4294934531, "SESSION")]

/-- What a message calls an encoding, `str(Encoding.lookup(n))`. -/
def Encoding.describe (n : ℤ) : String := named ((names.lookup n).getD "unknown") n

namespace Encoding

def raw : ℤ := 0
def copyRectangle : ℤ := 1
def rre : ℤ := 2
def corre : ℤ := 4
def hextile : ℤ := 5
def tight : ℤ := 7
def zrle : ℤ := 16
def pseudoDesktopSize : ℤ := -223
def pseudoLastRect : ℤ := -224
def pseudoPointerPos : ℤ := -232
def pseudoCursor : ℤ := -239
def pseudoQemuExtendedKeyEvent : ℤ := -258
def pseudoFence : ℤ := -312

end Encoding

namespace FenceFlags

def blockBefore : ℕ := 1 <<< 0
def blockAfter : ℕ := 1 <<< 1
def syncNext : ℕ := 1 <<< 2
def request : ℕ := 1 <<< 31

end FenceFlags

/-- A protocol version, major and minor. -/
abbrev Ver : Type := ℤ × ℤ

namespace Ver

/-- Versions compare as Python tuples do: by major, then by minor. -/
def le (a b : Ver) : Prop := a.1 < b.1 ∨ a.1 = b.1 ∧ a.2 ≤ b.2

instance (a b : Ver) : Decidable (le a b) :=
  inferInstanceAs (Decidable (a.1 < b.1 ∨ a.1 = b.1 ∧ a.2 ≤ b.2))

theorem le_refl (a : Ver) : le a a := Or.inr ⟨rfl, Int.le_refl _⟩

theorem le_trans {a b c : Ver} (hab : le a b) (hbc : le b c) : le a c := by
  unfold le at *
  omega

end Ver

end VncDoTool
