import Apcupsd.Snmp.UpdateCis

/-!
# The OIDs of the MIBs

The OIDs that {lit}`apc-oids.h`, {lit}`rfc1628-oids.h` and {lit}`mge-oids.h` give to the items that
are queried, without their terminators.

Main results:

- Definitions {lit}`ciOidMap`, {lit}`rfc1628CiOidMap` and {lit}`mgeCiOidMap`: the maps of items.
-/

namespace Apcupsd
namespace Snmp

open Asn

/-! ## The PowerNet MIB -/

def upsBasicIdentModel : List Arc := [1, 3, 6, 1, 4, 1, 318, 1, 1, 1, 1, 1, 1]
def upsAdvIdentSerialNumber : List Arc := [1, 3, 6, 1, 4, 1, 318, 1, 1, 1, 1, 2, 3]
def upsBasicIdentName : List Arc := [1, 3, 6, 1, 4, 1, 318, 1, 1, 1, 1, 1, 2]
def upsAdvIdentFirmwareRevision : List Arc := [1, 3, 6, 1, 4, 1, 318, 1, 1, 1, 1, 2, 1]
def upsAdvIdentDateOfManufacture : List Arc := [1, 3, 6, 1, 4, 1, 318, 1, 1, 1, 1, 2, 2]
def upsBasicBatteryLastReplaceDate : List Arc := [1, 3, 6, 1, 4, 1, 318, 1, 1, 1, 2, 1, 3]
def upsAdvBatteryNominalVoltage : List Arc := [1, 3, 6, 1, 4, 1, 318, 1, 1, 1, 2, 2, 7]
def upsAdvConfigRatedOutputVoltage : List Arc := [1, 3, 6, 1, 4, 1, 318, 1, 1, 1, 5, 2, 1]
def upsAdvConfigLowTransferVolt : List Arc := [1, 3, 6, 1, 4, 1, 318, 1, 1, 1, 5, 2, 3]
def upsAdvConfigHighTransferVolt : List Arc := [1, 3, 6, 1, 4, 1, 318, 1, 1, 1, 5, 2, 2]
def upsAdvConfigReturnDelay : List Arc := [1, 3, 6, 1, 4, 1, 318, 1, 1, 1, 5, 2, 9]
def upsAdvConfigAlarmTimer : List Arc := [1, 3, 6, 1, 4, 1, 318, 1, 1, 1, 5, 2, 5]
def upsAdvConfigAlarm : List Arc := [1, 3, 6, 1, 4, 1, 318, 1, 1, 1, 5, 2, 4]
def upsAdvConfigLowBatteryRunTime : List Arc := [1, 3, 6, 1, 4, 1, 318, 1, 1, 1, 5, 2, 8]
def upsAdvConfigShutoffDelay : List Arc := [1, 3, 6, 1, 4, 1, 318, 1, 1, 1, 5, 2, 10]
def upsAdvConfigMinReturnCapacity : List Arc := [1, 3, 6, 1, 4, 1, 318, 1, 1, 1, 5, 2, 6]
def upsAdvConfigSensitivity : List Arc := [1, 3, 6, 1, 4, 1, 318, 1, 1, 1, 5, 2, 7]
def upsAdvBatteryNumOfBattPacks : List Arc := [1, 3, 6, 1, 4, 1, 318, 1, 1, 1, 2, 2, 5]
def upsAdvTestDiagnosticSchedule : List Arc := [1, 3, 6, 1, 4, 1, 318, 1, 1, 1, 7, 2, 1]
def upsAdvInputLineVoltage : List Arc := [1, 3, 6, 1, 4, 1, 318, 1, 1, 1, 3, 2, 1]
def upsAdvOutputVoltage : List Arc := [1, 3, 6, 1, 4, 1, 318, 1, 1, 1, 4, 2, 1]
def upsAdvBatteryActualVoltage : List Arc := [1, 3, 6, 1, 4, 1, 318, 1, 1, 1, 2, 2, 8]
def upsAdvInputFrequency : List Arc := [1, 3, 6, 1, 4, 1, 318, 1, 1, 1, 3, 2, 4]
def upsAdvOutputLoad : List Arc := [1, 3, 6, 1, 4, 1, 318, 1, 1, 1, 4, 2, 3]
def upsAdvBatteryTemperature : List Arc := [1, 3, 6, 1, 4, 1, 318, 1, 1, 1, 2, 2, 2]
def mUpsEnvironAmbientTemperature : List Arc := [1, 3, 6, 1, 4, 1, 318, 1, 1, 2, 1, 1]
def mUpsEnvironRelativeHumidity : List Arc := [1, 3, 6, 1, 4, 1, 318, 1, 1, 2, 1, 2]
def upsAdvTestDiagnosticsResults : List Arc := [1, 3, 6, 1, 4, 1, 318, 1, 1, 1, 7, 2, 3]
def upsAdvBatteryCapacity : List Arc := [1, 3, 6, 1, 4, 1, 318, 1, 1, 1, 2, 2, 1]
def upsAdvBatteryRunTimeRemaining : List Arc := [1, 3, 6, 1, 4, 1, 318, 1, 1, 1, 2, 2, 3]
def upsAdvInputLineFailCause : List Arc := [1, 3, 6, 1, 4, 1, 318, 1, 1, 1, 3, 2, 5]
def upsAdvBatteryNumOfBadBattPacks : List Arc := [1, 3, 6, 1, 4, 1, 318, 1, 1, 1, 2, 2, 6]
def upsAdvInputMinLineVoltage : List Arc := [1, 3, 6, 1, 4, 1, 318, 1, 1, 1, 3, 2, 3]
def upsAdvInputMaxLineVoltage : List Arc := [1, 3, 6, 1, 4, 1, 318, 1, 1, 1, 3, 2, 2]
def upsBasicOutputStatus : List Arc := [1, 3, 6, 1, 4, 1, 318, 1, 1, 1, 4, 1, 1]
def upsAdvBatteryReplaceIndicator : List Arc := [1, 3, 6, 1, 4, 1, 318, 1, 1, 1, 2, 2, 4]
def upsBasicBatteryStatus : List Arc := [1, 3, 6, 1, 4, 1, 318, 1, 1, 1, 2, 1, 1]
def upsAdvTestCalibrationResults : List Arc := [1, 3, 6, 1, 4, 1, 318, 1, 1, 1, 7, 2, 6]
def upsBasicStateOutputState : List Arc := [1, 3, 6, 1, 4, 1, 318, 1, 1, 1, 11, 1, 1]

/-- {lit}`CiOidMap`, without the row that ends it. -/
def ciOidMap : List CiOid :=
  [⟨.upsmodel, upsBasicIdentModel, octetStringId, false⟩,
    ⟨.serno, upsAdvIdentSerialNumber, octetStringId, false⟩,
    ⟨.iden, upsBasicIdentName, octetStringId, false⟩,
    ⟨.revno, upsAdvIdentFirmwareRevision, octetStringId, false⟩,
    ⟨.mandat, upsAdvIdentDateOfManufacture, octetStringId, false⟩,
    ⟨.battdat, upsBasicBatteryLastReplaceDate, octetStringId, false⟩,
    ⟨.nombattv, upsAdvBatteryNominalVoltage, integerId, false⟩,
    ⟨.nomoutv, upsAdvConfigRatedOutputVoltage, integerId, false⟩,
    ⟨.ltrans, upsAdvConfigLowTransferVolt, integerId, false⟩,
    ⟨.htrans, upsAdvConfigHighTransferVolt, integerId, false⟩,
    ⟨.dwake, upsAdvConfigReturnDelay, timeTicksId, false⟩,
    ⟨.alarmTimer, upsAdvConfigAlarmTimer, timeTicksId, false⟩,
    ⟨.dalarm, upsAdvConfigAlarm, integerId, false⟩,
    ⟨.dlbatt, upsAdvConfigLowBatteryRunTime, timeTicksId, false⟩,
    ⟨.dshutd, upsAdvConfigShutoffDelay, timeTicksId, false⟩,
    ⟨.retpct, upsAdvConfigMinReturnCapacity, integerId, false⟩,
    ⟨.sens, upsAdvConfigSensitivity, integerId, false⟩,
    ⟨.extbatts, upsAdvBatteryNumOfBattPacks, integerId, false⟩,
    ⟨.stesti, upsAdvTestDiagnosticSchedule, integerId, false⟩,
    ⟨.vline, upsAdvInputLineVoltage, gaugeId, true⟩,
    ⟨.vout, upsAdvOutputVoltage, gaugeId, true⟩,
    ⟨.vbatt, upsAdvBatteryActualVoltage, integerId, true⟩,
    ⟨.freq, upsAdvInputFrequency, gaugeId, true⟩,
    ⟨.load, upsAdvOutputLoad, gaugeId, true⟩,
    ⟨.itemp, upsAdvBatteryTemperature, gaugeId, true⟩,
    ⟨.atemp, mUpsEnvironAmbientTemperature, gaugeId, true⟩,
    ⟨.humid, mUpsEnvironRelativeHumidity, gaugeId, true⟩,
    ⟨.stStat, upsAdvTestDiagnosticsResults, integerId, true⟩,
    ⟨.battlev, upsAdvBatteryCapacity, gaugeId, true⟩,
    ⟨.runtim, upsAdvBatteryRunTimeRemaining, timeTicksId, true⟩,
    ⟨.whyBatt, upsAdvInputLineFailCause, integerId, true⟩,
    ⟨.badbatts, upsAdvBatteryNumOfBadBattPacks, integerId, true⟩,
    ⟨.vmin, upsAdvInputMinLineVoltage, gaugeId, true⟩,
    ⟨.vmax, upsAdvInputMaxLineVoltage, gaugeId, true⟩,
    ⟨.status, upsBasicOutputStatus, integerId, true⟩,
    ⟨.needReplacement, upsAdvBatteryReplaceIndicator, integerId, true⟩,
    ⟨.lowBattery, upsBasicBatteryStatus, integerId, true⟩,
    ⟨.calibration, upsAdvTestCalibrationResults, integerId, true⟩,
    ⟨.overload, upsBasicStateOutputState, octetStringId, true⟩]

/-! ## The MIB of RFC 1628 -/

def upsIdentModel : List Arc := [1, 3, 6, 1, 2, 1, 33, 1, 1, 2]
def upsIdentName : List Arc := [1, 3, 6, 1, 2, 1, 33, 1, 1, 5]
def upsIdentUPSSoftwareVersion : List Arc := [1, 3, 6, 1, 2, 1, 33, 1, 1, 3]
def upsConfigOutputVoltage : List Arc := [1, 3, 6, 1, 2, 1, 33, 1, 9, 3]
def upsConfigInputVoltage : List Arc := [1, 3, 6, 1, 2, 1, 33, 1, 9, 1]
def upsConfigOutputPower : List Arc := [1, 3, 6, 1, 2, 1, 33, 1, 9, 6]
def upsConfigLowVoltageTransferPoint : List Arc := [1, 3, 6, 1, 2, 1, 33, 1, 9, 9]
def upsConfigHighVoltageTransferPoint : List Arc := [1, 3, 6, 1, 2, 1, 33, 1, 9, 10]
def upsConfigAudibleStatus : List Arc := [1, 3, 6, 1, 2, 1, 33, 1, 9, 8]
def upsConfigLowBattTime : List Arc := [1, 3, 6, 1, 2, 1, 33, 1, 9, 7]
def upsInputTableInputVoltage : List Arc := [1, 3, 6, 1, 2, 1, 33, 1, 3, 3, 1, 3]
def upsOutputTableOutputVoltage : List Arc := [1, 3, 6, 1, 2, 1, 33, 1, 4, 4, 1, 2]
def upsBatteryVoltage : List Arc := [1, 3, 6, 1, 2, 1, 33, 1, 2, 5]
def upsInputTableInputFrequency : List Arc := [1, 3, 6, 1, 2, 1, 33, 1, 3, 3, 1, 2]
def upsOutputTableOutputPercentLoad : List Arc := [1, 3, 6, 1, 2, 1, 33, 1, 4, 4, 1, 5]
def upsBatteryTemperature : List Arc := [1, 3, 6, 1, 2, 1, 33, 1, 2, 7]
def upsTestResultsSummary : List Arc := [1, 3, 6, 1, 2, 1, 33, 1, 7, 3]
def upsEstimatedChargeRemaining : List Arc := [1, 3, 6, 1, 2, 1, 33, 1, 2, 4]
def upsEstimatedMinutesRemaining : List Arc := [1, 3, 6, 1, 2, 1, 33, 1, 2, 3]
def upsOutputSource : List Arc := [1, 3, 6, 1, 2, 1, 33, 1, 4, 1]
def upsBatteryStatus : List Arc := [1, 3, 6, 1, 2, 1, 33, 1, 2, 1]

/-- {lit}`Rfc1628CiOidMap`, without the row that ends it. -/
def rfc1628CiOidMap : List CiOid :=
  [⟨.upsmodel, upsIdentModel, octetStringId, false⟩,
    ⟨.iden, upsIdentName, octetStringId, false⟩,
    ⟨.revno, upsIdentUPSSoftwareVersion, octetStringId, false⟩,
    ⟨.nomoutv, upsConfigOutputVoltage, integerId, false⟩,
    ⟨.nominv, upsConfigInputVoltage, integerId, false⟩,
    ⟨.nompower, upsConfigOutputPower, integerId, false⟩,
    ⟨.ltrans, upsConfigLowVoltageTransferPoint, integerId, false⟩,
    ⟨.htrans, upsConfigHighVoltageTransferPoint, integerId, false⟩,
    ⟨.dalarm, upsConfigAudibleStatus, integerId, false⟩,
    ⟨.dlbatt, upsConfigLowBattTime, integerId, false⟩,
    ⟨.vline, upsInputTableInputVoltage, sequenceId, true⟩,
    ⟨.vout, upsOutputTableOutputVoltage, sequenceId, true⟩,
    ⟨.vbatt, upsBatteryVoltage, integerId, true⟩,
    ⟨.freq, upsInputTableInputFrequency, sequenceId, true⟩,
    ⟨.load, upsOutputTableOutputPercentLoad, sequenceId, true⟩,
    ⟨.itemp, upsBatteryTemperature, integerId, true⟩,
    ⟨.stStat, upsTestResultsSummary, integerId, true⟩,
    ⟨.battlev, upsEstimatedChargeRemaining, integerId, true⟩,
    ⟨.runtim, upsEstimatedMinutesRemaining, integerId, true⟩,
    ⟨.status, upsOutputSource, integerId, true⟩,
    ⟨.lowBattery, upsBatteryStatus, integerId, true⟩]

/-! ## The MGE MIB -/

def upsmgIdentFamilyName : List Arc := [1, 3, 6, 1, 4, 1, 705, 1, 1, 1]
def upsmgOutputOnBattery : List Arc := [1, 3, 6, 1, 4, 1, 705, 1, 7, 3]
def upsmgInputLineFailCause : List Arc := [1, 3, 6, 1, 4, 1, 705, 1, 6, 4]
def upsmgTestDiagResult : List Arc := [1, 3, 6, 1, 4, 1, 705, 1, 10, 3]
def mginputVoltage : List Arc := [1, 3, 6, 1, 4, 1, 705, 1, 6, 2, 1, 2]
def mginputMaximumVoltage : List Arc := [1, 3, 6, 1, 4, 1, 705, 1, 6, 2, 1, 5]
def mginputMinimumVoltage : List Arc := [1, 3, 6, 1, 4, 1, 705, 1, 6, 2, 1, 4]
def mgoutputVoltage : List Arc := [1, 3, 6, 1, 4, 1, 705, 1, 7, 2, 1, 2]
def upsmgBatteryLevel : List Arc := [1, 3, 6, 1, 4, 1, 705, 1, 5, 2]
def upsmgBatteryVoltage : List Arc := [1, 3, 6, 1, 4, 1, 705, 1, 5, 5]
def mgoutputLoadPerPhase : List Arc := [1, 3, 6, 1, 4, 1, 705, 1, 7, 2, 1, 4]
def mginputFrequency : List Arc := [1, 3, 6, 1, 4, 1, 705, 1, 6, 2, 1, 3]
def upsmgBatteryRemainingTime : List Arc := [1, 3, 6, 1, 4, 1, 705, 1, 5, 1]
def upsmgBatteryTemperature : List Arc := [1, 3, 6, 1, 4, 1, 705, 1, 5, 7]
def mgreceptacleRestartDelay : List Arc := [1, 3, 6, 1, 4, 1, 705, 1, 4, 23, 1, 8]
def upsmgConfigSysShutDuration : List Arc := [1, 3, 6, 1, 4, 1, 705, 1, 4, 11]
def upsmgConfigLowTransfer : List Arc := [1, 3, 6, 1, 4, 1, 705, 1, 4, 13]
def upsmgConfigHighTransfer : List Arc := [1, 3, 6, 1, 4, 1, 705, 1, 4, 14]
def upsmgConfigMinRechargeLevel : List Arc := [1, 3, 6, 1, 4, 1, 705, 1, 4, 5]
def upsmgConfigAlarmTimeDelay : List Arc := [1, 3, 6, 1, 4, 1, 705, 1, 4, 20]
def upsmgConfigAlarmAudible : List Arc := [1, 3, 6, 1, 4, 1, 705, 1, 4, 19]
def upsmgConfigLowBatteryTime : List Arc := [1, 3, 6, 1, 4, 1, 705, 1, 4, 7]
def upsmgTestBatterySchedule : List Arc := [1, 3, 6, 1, 4, 1, 705, 1, 10, 1]
def upsmgIdentSerialNumber : List Arc := [1, 3, 6, 1, 4, 1, 705, 1, 1, 7]
def upsmgConfigNominalBatteryVoltage : List Arc := [1, 3, 6, 1, 4, 1, 705, 1, 4, 2]
def upsmgEnvironAmbientHumidity : List Arc := [1, 3, 6, 1, 4, 1, 705, 1, 8, 2]
def upsmgIdentFirmwareVersion : List Arc := [1, 3, 6, 1, 4, 1, 705, 1, 1, 4]
def upsmgEnvironAmbientTemp : List Arc := [1, 3, 6, 1, 4, 1, 705, 1, 8, 1]
def upsmgConfigOutputNominalVoltage : List Arc := [1, 3, 6, 1, 4, 1, 705, 1, 4, 15]
def upsmgOutputOnBoost : List Arc := [1, 3, 6, 1, 4, 1, 705, 1, 7, 8]
def upsmgOutputOnBuck : List Arc := [1, 3, 6, 1, 4, 1, 705, 1, 7, 12]
def upsmgOutputOverLoad : List Arc := [1, 3, 6, 1, 4, 1, 705, 1, 7, 10]
def upsmgBatteryReplacement : List Arc := [1, 3, 6, 1, 4, 1, 705, 1, 5, 11]
def upsmgBatteryLowBattery : List Arc := [1, 3, 6, 1, 4, 1, 705, 1, 5, 14]

/-- {lit}`MGE_CiOidMap`, without the row that ends it. -/
def mgeCiOidMap : List CiOid :=
  [⟨.upsmodel, upsmgIdentFamilyName, octetStringId, false⟩,
    ⟨.status, upsmgOutputOnBattery, integerId, true⟩,
    ⟨.whyBatt, upsmgInputLineFailCause, integerId, true⟩,
    ⟨.stStat, upsmgTestDiagResult, integerId, true⟩,
    ⟨.vline, mginputVoltage, sequenceId, true⟩,
    ⟨.vmax, mginputMaximumVoltage, sequenceId, true⟩,
    ⟨.vmin, mginputMinimumVoltage, sequenceId, true⟩,
    ⟨.vout, mgoutputVoltage, sequenceId, true⟩,
    ⟨.battlev, upsmgBatteryLevel, integerId, true⟩,
    ⟨.vbatt, upsmgBatteryVoltage, integerId, true⟩,
    ⟨.load, mgoutputLoadPerPhase, sequenceId, true⟩,
    ⟨.freq, mginputFrequency, sequenceId, true⟩,
    ⟨.runtim, upsmgBatteryRemainingTime, integerId, true⟩,
    ⟨.itemp, upsmgBatteryTemperature, integerId, true⟩,
    ⟨.dwake, mgreceptacleRestartDelay, integerId, false⟩,
    ⟨.dshutd, upsmgConfigSysShutDuration, integerId, false⟩,
    ⟨.ltrans, upsmgConfigLowTransfer, integerId, false⟩,
    ⟨.htrans, upsmgConfigHighTransfer, integerId, false⟩,
    ⟨.retpct, upsmgConfigMinRechargeLevel, integerId, false⟩,
    ⟨.alarmTimer, upsmgConfigAlarmTimeDelay, integerId, false⟩,
    ⟨.dalarm, upsmgConfigAlarmAudible, integerId, false⟩,
    ⟨.dlbatt, upsmgConfigLowBatteryTime, integerId, false⟩,
    ⟨.stesti, upsmgTestBatterySchedule, integerId, false⟩,
    ⟨.serno, upsmgIdentSerialNumber, octetStringId, false⟩,
    ⟨.nombattv, upsmgConfigNominalBatteryVoltage, integerId, false⟩,
    ⟨.humid, upsmgEnvironAmbientHumidity, integerId, true⟩,
    ⟨.revno, upsmgIdentFirmwareVersion, octetStringId, false⟩,
    ⟨.atemp, upsmgEnvironAmbientTemp, integerId, true⟩,
    ⟨.nomoutv, upsmgConfigOutputNominalVoltage, integerId, false⟩,
    ⟨.boost, upsmgOutputOnBoost, integerId, true⟩,
    ⟨.trim, upsmgOutputOnBuck, integerId, true⟩,
    ⟨.overload, upsmgOutputOverLoad, integerId, true⟩,
    ⟨.needReplacement, upsmgBatteryReplacement, integerId, true⟩,
    ⟨.lowBattery, upsmgBatteryLowBattery, integerId, true⟩]

end Snmp
end Apcupsd
