import RdmaCapsule.Foundation.Assignments
import RdmaCapsule.Foundation.Loop
import RdmaCapsule.Network.EntityAddr

/-! The configuration file: words with blanks between them, a key and its value in turn. The
constructor reads until the stream has seen the end of the file, and parses what stands in its two
variables after each pass, whether or not a word could be read into them. -/
namespace RdmaCapsule.Common

open RdmaCapsule.Foundation RdmaCapsule.Foundation.Text RdmaCapsule.Core RdmaCapsule.Network
open RdmaCapsule.Multicast (inetPton inetNtoa htons)

/-- What `std::stoi` throws. -/
inductive StoiFault where
  | invalidArgument
  | outOfRange
  deriving DecidableEq

def isDigit (c : Char) : Bool := '0' ≤ c ∧ c ≤ '9'

def decimal (text : List Char) : Nat :=
  text.foldl (fun acc c => 10 * acc + (c.toNat - '0'.toNat)) 0

def stoi (text : List Char) : Except StoiFault Int :=
  let (minus, text) := skipSign (text.dropWhile isSpace)
  let digits := text.takeWhile isDigit
  if digits = [] then .error .invalidArgument
  else
    let n : Int := if minus then -decimal digits else decimal digits
    if -2 ^ 31 ≤ n ∧ n < 2 ^ 31 then .ok n else .error .outOfRange

/-- The members of `Config` that a file can set. -/
structure Config where
  useRdma : Bool
  useRdmaCm : Bool
  rdmaEnableHugepage : Bool
  rdmaSupportSrq : Bool
  rdmaDeviceName : List Char
  gidIndex : UInt8
  opThreadsNum : UInt16
  ipAddr : List Char
  listenPort : UInt16
  addr : EntityAddr
  mcGroup : McGroup
  requestSize : UInt32
  requestNum : UInt32
  cpuId : UInt8
  crRole : UInt16

inductive ConfigKey where
  | useRdma
  | rdmaCm
  | rdmaEnableHugePage
  | rdmaSupportSrq
  | ip
  | listenPort
  | rdmaDeviceName
  | rdmaThreadsNum
  | multicastGroupIp1
  | multicastGroupIp2
  | multicastGroupPort1
  | multicastGroupPort2
  | gidIndex
  | requestSize
  | requestNum
  | cpuId
  | crRole
  deriving DecidableEq

namespace ConfigKey

/-- In the order of the comparisons. -/
def all : List ConfigKey :=
  [.useRdma, .rdmaCm, .rdmaEnableHugePage, .rdmaSupportSrq, .ip, .listenPort, .rdmaDeviceName,
    .rdmaThreadsNum, .multicastGroupIp1, .multicastGroupIp2, .multicastGroupPort1,
    .multicastGroupPort2, .gidIndex, .requestSize, .requestNum, .cpuId, .crRole]

def text : ConfigKey → List Char
  | .useRdma => "USE_RDMA".toList
  | .rdmaCm => "RDMA_CM".toList
  | .rdmaEnableHugePage => "RDMA_ENABLE_HUGE_PAGE".toList
  | .rdmaSupportSrq => "RDMA_SURRPORT_SRQ".toList
  | .ip => "IP".toList
  | .listenPort => "LISTEN_PORT".toList
  | .rdmaDeviceName => "RDMA_DEVICE_NAME".toList
  | .rdmaThreadsNum => "RDMA_THREADS_NUM".toList
  | .multicastGroupIp1 => "MULTICAST_GROUP_IP1".toList
  | .multicastGroupIp2 => "MULTICAST_GROUP_IP2".toList
  | .multicastGroupPort1 => "MULTICAST_GROUP_PORT1".toList
  | .multicastGroupPort2 => "MULTICAST_GROUP_PORT2".toList
  | .gidIndex => "GID_INDEX".toList
  | .requestSize => "REQUEST_SIZE".toList
  | .requestNum => "REQUEST_NUM".toList
  | .cpuId => "CPU_ID".toList
  | .crRole => "CR_ROLE".toList

def ofText (key : List Char) : Option ConfigKey := all.find? fun k => k.text = key

end ConfigKey

/-- What a branch of `parse` assigns. -/
inductive Setting where
  | useRdma (val : Bool)
  | rdmaCm (val : Bool)
  | rdmaEnableHugePage (val : Bool)
  | rdmaSupportSrq (val : Bool)
  | ip (val : List Char)
  | listenPort (val : UInt16)
  | rdmaDeviceName (val : List Char)
  | rdmaThreadsNum (val : UInt16)
  | multicastGroupIp1 (val : List Char)
  | multicastGroupIp2 (val : List Char)
  | multicastGroupPort1 (val : UInt16)
  | multicastGroupPort2 (val : UInt16)
  | gidIndex (val : UInt8)
  | requestSize (val : UInt32)
  | requestNum (val : UInt32)
  | cpuId (val : UInt8)
  | crRole (val : UInt16)

/-- The value as the branch of the key converts it. -/
def ConfigKey.read (val : List Char) : ConfigKey → Except StoiFault Setting
  | .useRdma => .ok (.useRdma (val = "true".toList))
  | .rdmaCm => .ok (.rdmaCm (val = "true".toList))
  | .rdmaEnableHugePage => .ok (.rdmaEnableHugePage (val = "true".toList))
  | .rdmaSupportSrq => .ok (.rdmaSupportSrq (val = "true".toList))
  | .ip => .ok (.ip val)
  | .listenPort => (stoi val).map fun n => .listenPort (.ofInt n)
  | .rdmaDeviceName => .ok (.rdmaDeviceName val)
  | .rdmaThreadsNum => (stoi val).map fun n => .rdmaThreadsNum (.ofInt n)
  | .multicastGroupIp1 => .ok (.multicastGroupIp1 val)
  | .multicastGroupIp2 => .ok (.multicastGroupIp2 val)
  | .multicastGroupPort1 => (stoi val).map fun n => .multicastGroupPort1 (.ofInt n)
  | .multicastGroupPort2 => (stoi val).map fun n => .multicastGroupPort2 (.ofInt n)
  | .gidIndex => (stoi val).map fun n => .gidIndex (.ofInt n)
  | .requestSize => (stoi val).map fun n => .requestSize (.ofInt n)
  | .requestNum => (stoi val).map fun n => .requestNum (.ofInt n)
  | .cpuId => (stoi val).map fun n => .cpuId (.ofInt n)
  | .crRole => (stoi val).map fun n => .crRole (.ofInt n)

/-- The address that `inet_pton` finds in `c_str()`, or what was in the memory before. -/
def pton (val : List Char) (found : SockaddrIn) : UInt32 :=
  (inetPton (val.takeWhile (· ≠ nul))).getD found.sinAddr

namespace Setting

def key : Setting → ConfigKey
  | .useRdma _ => .useRdma
  | .rdmaCm _ => .rdmaCm
  | .rdmaEnableHugePage _ => .rdmaEnableHugePage
  | .rdmaSupportSrq _ => .rdmaSupportSrq
  | .ip _ => .ip
  | .listenPort _ => .listenPort
  | .rdmaDeviceName _ => .rdmaDeviceName
  | .rdmaThreadsNum _ => .rdmaThreadsNum
  | .multicastGroupIp1 _ => .multicastGroupIp1
  | .multicastGroupIp2 _ => .multicastGroupIp2
  | .multicastGroupPort1 _ => .multicastGroupPort1
  | .multicastGroupPort2 _ => .multicastGroupPort2
  | .gidIndex _ => .gidIndex
  | .requestSize _ => .requestSize
  | .requestNum _ => .requestNum
  | .cpuId _ => .cpuId
  | .crRole _ => .crRole

/-- `found` is the memory of the `sockaddr_in` that the branch makes. -/
def put (found : SockaddrIn) (c : Config) : Setting → Config
  | .useRdma val => { c with useRdma := val }
  | .rdmaCm val => { c with useRdmaCm := val }
  | .rdmaEnableHugePage val => { c with rdmaEnableHugepage := val }
  | .rdmaSupportSrq val => { c with rdmaSupportSrq := val }
  | .ip val =>
      let addr := { c.addr with nonce := 0 }.setFamily afInet
      let sa := { found with
        sinAddr := pton val found
        sinFamily := afInet
        sinPort := addr.u.sin.sinPort }
      { c with ipAddr := val, addr := (addr.setSockaddr { SockUnion.zero with sin := sa }).2 }
  | .listenPort val => { c with listenPort := val, addr.u.sin.sinPort := htons val }
  | .rdmaDeviceName val => { c with rdmaDeviceName := val }
  | .rdmaThreadsNum val => { c with opThreadsNum := val }
  | .multicastGroupIp1 val => { c with mcGroup.ipAddrMember1 := pton val found }
  | .multicastGroupIp2 val => { c with mcGroup.ipAddrMember2 := pton val found }
  | .multicastGroupPort1 val => { c with mcGroup.portMember1 := val }
  | .multicastGroupPort2 val => { c with mcGroup.portMember2 := val }
  | .gidIndex val => { c with gidIndex := val }
  | .requestSize val => { c with requestSize := val }
  | .requestNum val => { c with requestNum := val }
  | .cpuId val => { c with cpuId := val }
  | .crRole val => { c with crRole := val }

end Setting

/-- Nothing is set by a key that is not known. -/
def readSetting (key val : List Char) : Except StoiFault (Option Setting) :=
  match ConfigKey.ofText key with
  | none => .ok none
  | some k => (k.read val).map some

def Config.parse (found : SockaddrIn) (key val : List Char) (c : Config) :
    Except StoiFault Config := do
  match ← readSetting key val with
  | none => pure c
  | some setting => pure (setting.put found c)

/-- What is left of the file, and the bits of the stream. -/
structure FileStream where
  rest : List Char
  eof : Bool
  fail : Bool

namespace FileStream

/-- `>>` into a string, which keeps what it holds if there is no word. -/
def extract (stream : FileStream) (old : List Char) : List Char × FileStream :=
  if stream.eof || stream.fail then (old, { stream with fail := true })
  else
    let text := stream.rest.dropWhile isSpace
    if text = [] then (old, ⟨[], true, true⟩)
    else
      let rest := text.dropWhile (!isSpace ·)
      (text.takeWhile (!isSpace ·), ⟨rest, rest.isEmpty, false⟩)

end FileStream

/-- The constructor of `Config` on the way; `made` counts its passes. -/
structure Reading where
  file : FileStream
  key : List Char
  val : List Char
  config : Config
  made : Nat

namespace Reading

def start (file : List Char) (c : Config) : Reading := ⟨⟨file, false, false⟩, [], [], c, 0⟩

/-- One pass; `found` is what each pass finds in the memory. -/
def pass (found : Nat → SockaddrIn) (reading : Reading) : Except StoiFault Reading := do
  let (key, file) := reading.file.extract reading.key
  let (val, file) := file.extract reading.val
  let config ← reading.config.parse (found reading.made) key val
  pure ⟨file, key, val, config, reading.made + 1⟩

def loop (found : Nat → SockaddrIn) : Loop Reading StoiFault where
  going reading := !reading.file.eof
  body := pass found

end Reading

end RdmaCapsule.Common
