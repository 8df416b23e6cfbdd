import NesDbg.Word
import NesDbg.Packet
import NesDbg.Hex
import NesDbg.Decode
import NesDbg.Lua
import NesDbg.Serial
import NesDbg.Commands
import NesDbg.Script
import NesDbg.ScriptDlg
import NesDbg.LoadAsm
import NesDbg.Device
import NesDbg.LoadRom
import NesDbg.Target
import NesDbg.Session
import NesDbg.Loading
