/-! The OEM commands of the management controller. Host tooling hardcodes their
numbers, so each command owns one byte and commands are only ever appended. -/
namespace SlotLanes.Ipmi

inductive Command where
  | cableCheck
  | cpldVersion
  | getEthDevice
  | psuHardReset
  | pcieSlotCount
  | pcieSlotI2cBusMapping
  | entityName
  | machineName
  | psuHardResetOnShutdown
  | getFlashSize
  | hostPowerOff
  | accelOobDeviceCount
  | accelOobRead
  | accelOobWrite
  | pcieBifurcation
  | getBmcMode
  | linuxBootDone
  deriving DecidableEq, Repr, Inhabited

namespace Command

def all : List Command :=
  [cableCheck, cpldVersion, getEthDevice, psuHardReset, pcieSlotCount, pcieSlotI2cBusMapping,
    entityName, machineName, psuHardResetOnShutdown, getFlashSize, hostPowerOff,
    accelOobDeviceCount, accelOobRead, accelOobWrite, pcieBifurcation, getBmcMode, linuxBootDone]

def byte : Command → UInt8
  | cableCheck => 0x00
  | cpldVersion => 0x01
  | getEthDevice => 0x02
  | psuHardReset => 0x03
  | pcieSlotCount => 0x04
  | pcieSlotI2cBusMapping => 0x05
  | entityName => 0x06
  | machineName => 0x07
  | psuHardResetOnShutdown => 0x08
  | getFlashSize => 0x09
  | hostPowerOff => 0x0a
  | accelOobDeviceCount => 0x0b
  | accelOobRead => 0x0c
  | accelOobWrite => 0x0d
  | pcieBifurcation => 0x0e
  | getBmcMode => 0x0f
  | linuxBootDone => 0x10

def name : Command → String
  | cableCheck => "CableCheck"
  | cpldVersion => "CpldVersion"
  | getEthDevice => "GetEthDevice"
  | psuHardReset => "PsuHardReset"
  | pcieSlotCount => "PcieSlotCount"
  | pcieSlotI2cBusMapping => "PcieSlotI2cBusMapping"
  | entityName => "EntityName"
  | machineName => "MachineName"
  | psuHardResetOnShutdown => "PsuHardResetOnShutdown"
  | getFlashSize => "GetFlashSize"
  | hostPowerOff => "HostPowerOff"
  | accelOobDeviceCount => "AccelOobDeviceCount"
  | accelOobRead => "AccelOobRead"
  | accelOobWrite => "AccelOobWrite"
  | pcieBifurcation => "PcieBifurcation"
  | getBmcMode => "GetBmcMode"
  | linuxBootDone => "LinuxBootDone"

def ofByte? (byte : UInt8) : Option Command :=
  all.find? (·.byte == byte)

@[simp] theorem ofByte?_byte (command : Command) : ofByte? command.byte = some command := by
  cases command <;> rfl

theorem byte_of_ofByte? {byte : UInt8} {command : Command} (found : ofByte? byte = some command) :
    command.byte = byte := by
  simpa using List.find?_some found

theorem ofByte?_eq_some_iff {byte : UInt8} {command : Command} :
    ofByte? byte = some command ↔ command.byte = byte :=
  ⟨byte_of_ofByte?, fun same => same ▸ ofByte?_byte command⟩

end Command
end SlotLanes.Ipmi
