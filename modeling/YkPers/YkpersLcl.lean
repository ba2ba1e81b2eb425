import YkPers.Ykpers

/-!
# The tables of `ykpers_lcl.c`

Each flag with its texts, the modes it is for, the capability it needs and its setter. The entry
that ends each table of the source is left out, and so are the fields that it leaves at 0.
-/

namespace YkPers

structure MapSt where
  flag : UInt8
  flagText : String
  jsonText : Option String
  capability : YkpConfig → Bool
  mode : UInt8
  setter : Bool → Proc YkpState Unit

def modeChalHmac : UInt8 := 0x01
def modeOathHotp : UInt8 := 0x02
def modeOtpYubico : UInt8 := 0x04
def modeChalYubico : UInt8 := 0x08
def modeStaticTicket : UInt8 := 0x10

def modeChalResp : UInt8 := modeChalYubico ||| modeChalHmac
def modeOutput : UInt8 := modeStaticTicket ||| modeOtpYubico ||| modeOathHotp
def modeAll : UInt8 := 0xff

def ticketFlagsMap : List MapSt :=
  [⟨tktflagTabFirst, "TAB_FIRST", some "tabFirst", capabilityHasTicketMods, modeOutput,
      ykpSetTktflagTabFirst⟩,
   ⟨tktflagAppendTab1, "APPEND_TAB1", some "tabBetween", capabilityHasTicketMods, modeOutput,
      ykpSetTktflagAppendTab1⟩,
   ⟨tktflagAppendTab2, "APPEND_TAB2", some "tabLast", capabilityHasTicketMods, modeOutput,
      ykpSetTktflagAppendTab2⟩,
   ⟨tktflagAppendDelay1, "APPEND_DELAY1", some "appendDelay1", capabilityHasTicketMods, modeOutput,
      ykpSetTktflagAppendDelay1⟩,
   ⟨tktflagAppendDelay2, "APPEND_DELAY2", some "appendDelay2", capabilityHasTicketMods, modeOutput,
      ykpSetTktflagAppendDelay2⟩,
   ⟨tktflagAppendCr, "APPEND_CR", some "appendCR", capabilityHasTicketMods, modeOutput,
      ykpSetTktflagAppendCr⟩,
   ⟨tktflagProtectCfg2, "PROTECT_CFG2", some "protectSecond", capabilityHasSlotTwo, modeAll,
      ykpSetTktflagProtectCfg2⟩,
   ⟨tktflagOathHotp, "OATH_HOTP", none, capabilityHasOath, modeOathHotp, ykpSetTktflagOathHotp⟩,
   ⟨tktflagChalResp, "CHAL_RESP", none, capabilityHasChalResp, modeChalResp,
      ykpSetTktflagChalResp⟩]

def configFlagsMap : List MapSt :=
  [⟨cfgflagChalYubico, "CHAL_YUBICO", none, capabilityHasChalResp, modeChalYubico,
      ykpSetCfgflagChalYubico⟩,
   ⟨cfgflagChalHmac, "CHAL_HMAC", none, capabilityHasChalResp, modeChalHmac,
      ykpSetCfgflagChalHmac⟩,
   ⟨cfgflagHmacLt64, "HMAC_LT64", some "hmacLt64", capabilityHasChalResp, modeChalHmac,
      ykpSetCfgflagHmacLt64⟩,
   ⟨cfgflagChalBtnTrig, "CHAL_BTN_TRIG", some "buttonReqd", capabilityHasChalResp, modeChalResp,
      ykpSetCfgflagChalBtnTrig⟩,
   ⟨cfgflagOathHotp8, "OATH_HOTP8", none, capabilityHasOath, modeOathHotp, ykpSetCfgflagOathHotp8⟩,
   ⟨cfgflagOathFixedModhex1, "OATH_FIXED_MODHEX1", none, capabilityHasOath, modeOathHotp,
      ykpSetCfgflagOathFixedModhex1⟩,
   ⟨cfgflagOathFixedModhex2, "OATH_FIXED_MODHEX2", none, capabilityHasOath, modeOathHotp,
      ykpSetCfgflagOathFixedModhex2⟩,
   ⟨cfgflagOathFixedModhex, "OATH_FIXED_MODHEX", none, capabilityHasOath, modeOathHotp,
      ykpSetCfgflagOathFixedModhex⟩,
   ⟨cfgflagSendRef, "SEND_REF", some "sendRef", capabilityHasTicketMods, modeOutput,
      ykpSetCfgflagSendRef⟩,
   ⟨cfgflagTicketFirst, "TICKET_FIRST", none, capabilityHasTicketFirst, modeOutput,
      ykpSetCfgflagTicketFirst⟩,
   ⟨cfgflagPacing10ms, "PACING_10MS", some "pacing10ms", capabilityHasTicketMods, modeOutput,
      ykpSetCfgflagPacing10ms⟩,
   ⟨cfgflagPacing20ms, "PACING_20MS", some "pacing20ms", capabilityHasTicketMods, modeOutput,
      ykpSetCfgflagPacing20ms⟩,
   ⟨cfgflagAllowHidtrig, "ALLOW_HIDTRIG", none, capabilityHasHidtrig, modeOutput,
      ykpSetCfgflagAllowHidtrig⟩,
   ⟨cfgflagStaticTicket, "STATIC_TICKET", some "staticTicket", capabilityHasStatic,
      modeStaticTicket, ykpSetCfgflagStaticTicket⟩,
   ⟨cfgflagShortTicket, "SHORT_TICKET", some "shortTicket", capabilityHasStaticExtras, modeOutput,
      ykpSetCfgflagShortTicket⟩,
   ⟨cfgflagStrongPw1, "STRONG_PW1", some "strongPw1", capabilityHasStaticExtras, modeStaticTicket,
      ykpSetCfgflagStrongPw1⟩,
   ⟨cfgflagStrongPw2, "STRONG_PW2", some "strongPw2", capabilityHasStaticExtras, modeStaticTicket,
      ykpSetCfgflagStrongPw2⟩,
   ⟨cfgflagManUpdate, "MAN_UPDATE", some "manUpdate", capabilityHasStaticExtras, modeStaticTicket,
      ykpSetCfgflagManUpdate⟩]

def extendedFlagsMap : List MapSt :=
  [⟨extflagSerialBtnVisible, "SERIAL_BTN_VISIBLE", some "serialBtnVisible", capabilityHasSerial,
      modeAll, ykpSetExtflagSerialBtnVisible⟩,
   ⟨extflagSerialUsbVisible, "SERIAL_USB_VISIBLE", some "serialUsbVisible", capabilityHasSerial,
      modeAll, ykpSetExtflagSerialUsbVisible⟩,
   ⟨extflagSerialApiVisible, "SERIAL_API_VISIBLE", some "serialApiVisible",
      capabilityHasSerialApi, modeAll, ykpSetExtflagSerialApiVisible⟩,
   ⟨extflagUseNumericKeypad, "USE_NUMERIC_KEYPAD", some "useNumericKeypad", capabilityHasNumeric,
      modeAll, ykpSetExtflagUseNumericKeypad⟩,
   ⟨extflagFastTrig, "FAST_TRIG", some "fastTrig", capabilityHasFast, modeAll,
      ykpSetExtflagFastTrig⟩,
   ⟨extflagAllowUpdate, "ALLOW_UPDATE", some "allowUpdate", capabilityHasUpdate, modeAll,
      ykpSetExtflagAllowUpdate⟩,
   ⟨extflagDormant, "DORMANT", some "dormant", capabilityHasDormant, modeAll,
      ykpSetExtflagDormant⟩,
   ⟨extflagLedInv, "LED_INV", some "ledInverted", capabilityHasLedInv, modeAll,
      ykpSetExtflagLedInv⟩]

/-- Of a mode, the table has its number and its name. -/
def modesMap : List (UInt8 × String) :=
  [(modeOathHotp, "oathHOTP"), (modeChalHmac, "hmacCR"), (modeStaticTicket, "staticTicket"),
   (modeChalYubico, "yubicoCR"), (modeOtpYubico, "yubicoOTP")]

def flagsMap : FlagField → List MapSt
  | .tkt => ticketFlagsMap
  | .cfg => configFlagsMap
  | .ext => extendedFlagsMap

/-- An entry's setter sets its flag under its capability. -/
theorem setter_eq (field : FlagField) :
    ∀ p ∈ flagsMap field, p.setter = ykpSetFlag field p.flag p.capability := by
  cases field <;>
    simp only [flagsMap, ticketFlagsMap, configFlagsMap, extendedFlagsMap] <;>
    repeat' first
      | exact List.forall_mem_nil _
      | refine List.forall_mem_cons.2 ⟨rfl, ?_⟩

/-- `(mode & p->mode) == mode`: the entry is for the mode. -/
def MapSt.isFor (p : MapSt) (mode : UInt8) : Bool := mode &&& p.mode == mode

/-- The mode of a configuration by its flags. -/
def exportMode (c : YkConfig) : UInt8 :=
  if c.tktFlags &&& tktflagOathHotp = tktflagOathHotp then
    if c.cfgFlags &&& cfgflagChalHmac = cfgflagChalHmac then modeChalHmac
    else if c.cfgFlags &&& cfgflagChalYubico = cfgflagChalYubico then modeChalYubico
    else modeOathHotp
  else if c.cfgFlags &&& cfgflagStaticTicket = cfgflagStaticTicket then modeStaticTicket
  else modeOtpYubico

end YkPers
